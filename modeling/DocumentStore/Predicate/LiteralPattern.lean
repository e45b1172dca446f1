import DocumentStore.Predicate.Pattern

/-!
# Literal patterns

The engine that a store runs with when it is given no other.  It knows literal characters
and anchors for the start and the end of the text, and refuses all other patterns.
-/

namespace DocumentStore

inductive PatternAtom where
  | start
  | finish
  | literal (c : Char)
deriving DecidableEq, Repr

/-- A sequence of places, which matches where it stands anywhere in the text. -/
abbrev LiteralPattern := List PatternAtom

namespace LiteralPattern

/-! ## Matching -/

/-- Whether the atoms match at the front of `rest`; `atStart` says whether the front is
the start of the whole text. -/
def matchesHere (atStart : Bool) : LiteralPattern → List Char → Bool
  | [], _ => true
  | .start :: atoms, rest => atStart && matchesHere atStart atoms rest
  | .finish :: atoms, rest => rest.isEmpty && matchesHere atStart atoms rest
  | .literal _ :: _, [] => false
  | .literal c :: atoms, d :: rest => c == d && matchesHere false atoms rest

def search (atoms : LiteralPattern) (atStart : Bool) : List Char → Bool
  | [] => matchesHere atStart atoms []
  | c :: rest => matchesHere atStart atoms (c :: rest) || search atoms false rest

def isMatch (atoms : LiteralPattern) (text : List Char) : Bool := search atoms true text

/-! ## Reading -/

/-- The metacharacters that mean themselves where nothing is open. -/
def isHarmless (c : Char) : Bool :=
  [']', '\x7d', '#', '&', '-', '~'].contains c

/-- A metacharacter without a backslash that is no anchor is not known. -/
def read? : List Char → Option LiteralPattern
  | [] => some []
  | '\\' :: c :: rest =>
    if Pattern.isMeta c then (read? rest).map (.literal c :: ·) else none
  | c :: rest =>
    if c = '^' then (read? rest).map (.start :: ·)
    else if c = '$' then (read? rest).map (.finish :: ·)
    else if Pattern.isMeta c && !isHarmless c then none
    else (read? rest).map (.literal c :: ·)

end LiteralPattern

/-- Reads literal patterns, and refuses without a diagnostic. -/
def PatternReader.literal : PatternReader := fun regex =>
  match LiteralPattern.read? regex.toList with
  | some pattern => .ok fun text => pattern.isMatch text.toList
  | none => .error none

end DocumentStore
