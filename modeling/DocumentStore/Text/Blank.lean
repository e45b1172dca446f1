/-!
# Blanks and separators

Texts are cut as lists of characters.  `trim` drops blanks at both ends, `splitOn`
cuts at every separator, and `words` keeps the pieces between blanks.
-/

namespace DocumentStore.Text

/-- The characters with the Unicode property `White_Space`. -/
def isBlank (c : Char) : Bool :=
  let n := c.toNat
  (0x9 ≤ n && n ≤ 0xD) || n == 0x20 || n == 0x85 || n == 0xA0 || n == 0x1680
    || (0x2000 ≤ n && n ≤ 0x200A) || n == 0x2028 || n == 0x2029 || n == 0x202F
    || n == 0x205F || n == 0x3000

/-! ## Trimming -/

def trimLeft (drop : Char → Bool) (cs : List Char) : List Char := cs.dropWhile drop

def trimRight (drop : Char → Bool) (cs : List Char) : List Char :=
  (cs.reverse.dropWhile drop).reverse

def trimWhere (drop : Char → Bool) (cs : List Char) : List Char :=
  trimRight drop (trimLeft drop cs)

def trim (cs : List Char) : List Char := trimWhere isBlank cs

/-! ## Splitting -/

/-- The pieces between the characters of a class, one more than there are such
characters. -/
def splitWhere (cut : Char → Bool) : List Char → List (List Char)
  | [] => [[]]
  | c :: cs =>
    if cut c then [] :: splitWhere cut cs
    else
      match splitWhere cut cs with
      | [] => [[c]]
      | piece :: pieces => (c :: piece) :: pieces

def splitOn (separator : Char) (cs : List Char) : List (List Char) :=
  splitWhere (· == separator) cs

def words (cs : List Char) : List (List Char) :=
  (splitWhere isBlank cs).filter (!·.isEmpty)

def dropStart? (start : List Char) (cs : List Char) : Option (List Char) :=
  match start, cs with
  | [], cs => some cs
  | _ :: _, [] => none
  | s :: start, c :: cs => if s = c then dropStart? start cs else none

def dropEnd? (c : Char) (cs : List Char) : Option (List Char) :=
  match cs.reverse with
  | d :: rest => if d = c then some rest.reverse else none
  | [] => none

/-- ASCII letters lose their case, and all else stays. -/
def lower (cs : List Char) : List Char := cs.map Char.toLower

end DocumentStore.Text
