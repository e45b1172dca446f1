import DocumentStore.Json.Number

/-!
# Reading JSON text

Of a repeated key the first place and the last value are kept.  Every value that is
read uses at least one character, so the length of the text bounds the depth.
-/

namespace DocumentStore.Json

def isJsonBlank (c : Char) : Bool := c == ' ' || c == '\n' || c == '\r' || c == '\t'

def skipBlanks (cs : List Char) : List Char := cs.dropWhile isJsonBlank

/-! ## Strings -/

def unescape? : Char → Option Char
  | '"' => some '"'
  | '\\' => some '\\'
  | '/' => some '/'
  | 'b' => some '\x08'
  | 'f' => some '\x0c'
  | 'n' => some '\n'
  | 'r' => some '\r'
  | 't' => some '\t'
  | _ => none

def joinSurrogates? (high low : Nat) : Option Char :=
  if 0xD800 ≤ high ∧ high < 0xDC00 ∧ 0xDC00 ≤ low ∧ low < 0xE000 then
    some (Char.ofNat (0x10000 + (high - 0xD800) * 0x400 + (low - 0xDC00)))
  else none

def codeUnit? (digits : List Char) : Option Nat := Text.Hex.decode? digits

/-- Half of a pair alone is no character. -/
def ofUnit? (unit : Nat) : Option Char :=
  if 0xD800 ≤ unit ∧ unit < 0xE000 then none else some (Char.ofNat unit)

/-- The characters up to the closing quote, and the rest behind it.  Control characters
stand in a string only escaped. -/
def readString? : List Char → Option (List Char × List Char)
  | [] => none
  | '"' :: rest => some ([], rest)
  | '\\' :: 'u' :: a :: b :: c :: d :: '\\' :: 'u' :: e :: f :: g :: h :: rest =>
    match codeUnit? [a, b, c, d], codeUnit? [e, f, g, h] with
    | some high, some low =>
      match joinSurrogates? high low, ofUnit? high with
      | some character, _ =>
        (readString? rest).map fun (cs, left) => (character :: cs, left)
      | none, some character =>
        (readString? ('\\' :: 'u' :: e :: f :: g :: h :: rest)).map fun (cs, left) =>
          (character :: cs, left)
      | none, none => none
    | _, _ => none
  | '\\' :: 'u' :: a :: b :: c :: d :: rest =>
    match (codeUnit? [a, b, c, d]).bind ofUnit? with
    | some character => (readString? rest).map fun (cs, left) => (character :: cs, left)
    | none => none
  | '\\' :: c :: rest =>
    match unescape? c with
    | some character => (readString? rest).map fun (cs, left) => (character :: cs, left)
    | none => none
  | c :: rest =>
    if c.toNat < 0x20 then none
    else (readString? rest).map fun (cs, left) => (c :: cs, left)

/-! ## Values -/

def isNumberChar (c : Char) : Bool :=
  c.isDigit || c == '-' || c == '+' || c == '.' || c == 'e' || c == 'E'

mutual

def readValue? : Nat → List Char → Option (Json × List Char)
  | 0, _ => none
  | fuel + 1, cs =>
    match skipBlanks cs with
    | 'n' :: 'u' :: 'l' :: 'l' :: rest => some (.null, rest)
    | 't' :: 'r' :: 'u' :: 'e' :: rest => some (.bool true, rest)
    | 'f' :: 'a' :: 'l' :: 's' :: 'e' :: rest => some (.bool false, rest)
    | '"' :: rest => (readString? rest).map fun (s, left) => (.string (String.ofList s), left)
    | '[' :: rest =>
      match skipBlanks rest with
      | ']' :: left => some (.array [], left)
      | items => (readItems? fuel items).map fun (items, left) => (.array items, left)
    | '\x7b' :: rest =>
      match skipBlanks rest with
      | '\x7d' :: left => some (.object [], left)
      | members =>
        (readMembers? fuel members).map fun (fields, left) =>
          (.object (Fields.ofList fields), left)
    | rest => do
      let n ← number? (rest.takeWhile isNumberChar)
      return (n, rest.dropWhile isNumberChar)

def readItems? : Nat → List Char → Option (List Json × List Char)
  | 0, _ => none
  | fuel + 1, cs => do
    let (item, rest) ← readValue? fuel cs
    match skipBlanks rest with
    | ',' :: rest =>
      let (items, left) ← readItems? fuel rest
      return (item :: items, left)
    | ']' :: left => return ([item], left)
    | _ => none

def readMembers? : Nat → List Char → Option (List (String × Json) × List Char)
  | 0, _ => none
  | fuel + 1, cs => do
    let '"' :: rest := skipBlanks cs | none
    let (key, rest) ← readString? rest
    let ':' :: rest := skipBlanks rest | none
    let (value, rest) ← readValue? fuel rest
    let field := (String.ofList key, value)
    match skipBlanks rest with
    | ',' :: rest =>
      let (fields, left) ← readMembers? fuel rest
      return (field :: fields, left)
    | '\x7d' :: left => return ([field], left)
    | _ => none

end

def read? (source : String) : Option Json := do
  let cs := source.toList
  let (value, rest) ← readValue? (2 * cs.length + 2) cs
  if (skipBlanks rest).isEmpty then some value else none

end DocumentStore.Json
