import DocumentStore.Literal
import DocumentStore.Predicate.Basic

/-!
# Tokens of a filter

A filter text is cut into quoted runs, operator symbols and words, each with the
whitespace that stands before it; the gaps and texts together are the source up to
trailing whitespace.  A word that is an operator name in any case is that operator.
-/

namespace DocumentStore.Filter

/-- The connectives, the loosest first. -/
inductive Connective where
  | or
  | nor
  | and
deriving DecidableEq, Repr

inductive Operator where
  | comparison (op : Comparison)
  | like
deriving DecidableEq, Repr

inductive TokenKind where
  | connective (c : Connective)
  | not
  | operator (op : Operator)
  | quoted
  | word
deriving DecidableEq, Repr

structure Token where
  kind : TokenKind
  /-- The whitespace before the token. -/
  gap : List Char
  text : List Char
deriving DecidableEq, Repr

/-! ## Character classes -/

/-- ASCII whitespace without the vertical tab. -/
def isSpace (c : Char) : Bool :=
  c == ' ' || c == '\t' || c == '\n' || c == '\x0c' || c == '\r'

def symbol? : List Char → Option (TokenKind × List Char)
  | '|' :: '|' :: _ => some (.connective .or, ['|', '|'])
  | '&' :: '&' :: _ => some (.connective .and, ['&', '&'])
  | '!' :: '=' :: _ => some (.operator (.comparison .ne), ['!', '='])
  | '>' :: '=' :: _ => some (.operator (.comparison .gte), ['>', '='])
  | '<' :: '=' :: _ => some (.operator (.comparison .lte), ['<', '='])
  | '=' :: _ => some (.operator (.comparison .eq), ['='])
  | '>' :: _ => some (.operator (.comparison .gt), ['>'])
  | '<' :: _ => some (.operator (.comparison .lt), ['<'])
  | _ => none

def keywords : List (String × TokenKind) :=
  [("or", .connective .or), ("nor", .connective .nor), ("and", .connective .and),
    ("not", .not), ("like", .operator .like)]
    ++ Comparison.names.map fun (name, op) => (name, .operator (.comparison op))

/-- The kind of a word by its letters, whatever their case. -/
def wordKind (word : List Char) : TokenKind :=
  (keywords.lookup (String.ofList (Text.lower word))).getD .word

/-! ## One token -/

/-- The quoted run at the start of a text, closed by the next quote of its kind. -/
def quotedRun? : List Char → Option (List Char)
  | [] => none
  | c :: rest =>
    if Literal.isQuote c && rest.contains c then
      some (c :: rest.takeWhile (· != c) ++ [c])
    else none

/-- The characters up to whitespace or a symbol. -/
def wordRun : List Char → List Char
  | [] => []
  | c :: rest =>
    if isSpace c || (symbol? (c :: rest)).isSome then [] else c :: wordRun rest

def lexeme (cs : List Char) : TokenKind × List Char :=
  match quotedRun? cs with
  | some run => (.quoted, run)
  | none =>
    match symbol? cs with
    | some symbol => symbol
    | none => (wordKind (wordRun cs), wordRun cs)

theorem length_lexeme_pos {c : Char} {rest : List Char} (hc : isSpace c = false) :
    0 < (lexeme (c :: rest)).2.length := by
  unfold lexeme
  split
  · next run h =>
    simp only [quotedRun?] at h
    split at h <;> simp at h
    subst h; simp
  · split
    · next symbol h =>
      unfold symbol? at h
      split at h <;> simp at h <;> subst h <;> simp
    · next h => simp [wordRun, hc, h]

/-! ## All tokens -/

def tokens (source : List Char) : List Token :=
  match _h : source.dropWhile isSpace with
  | [] => []
  | c :: rest =>
    ⟨(lexeme (c :: rest)).1, source.takeWhile isSpace, (lexeme (c :: rest)).2⟩
      :: tokens ((c :: rest).drop (lexeme (c :: rest)).2.length)
termination_by source.length
decreasing_by
  have hle : (c :: rest).length ≤ source.length := by
    rw [← _h]; exact (List.dropWhile_sublist _).length_le
  have hc : isSpace c = false := by
    have := List.head?_dropWhile_not isSpace source
    rw [_h] at this
    simpa using this
  have hpos : 0 < (lexeme (c :: rest)).2.length := length_lexeme_pos hc
  simp only [List.length_drop, List.length_cons] at hle ⊢
  omega

/-! ## Places in the source -/

def sourceText : List Token → List Char
  | [] => []
  | token :: rest => token.text ++ rest.flatMap fun t => t.gap ++ t.text

def utf8Length : List Char → Nat
  | [] => 0
  | c :: cs => c.utf8Size + utf8Length cs

def spans (start : Nat) : List Token → List (Nat × Nat)
  | [] => []
  | token :: rest =>
    let first := start + utf8Length token.gap
    let last := first + utf8Length token.text
    (first, last) :: spans last rest

end DocumentStore.Filter
