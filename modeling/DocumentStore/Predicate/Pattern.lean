/-!
# Text patterns

A pattern is a text that an engine reads as a test of strings.  The text of a pattern for
given characters has them escaped, with an anchor at an end without a wildcard.
-/

namespace DocumentStore

/-- An engine for patterns.  It reads a text as a test of strings or refuses it, with a
diagnostic if it gives one. -/
abbrev PatternReader := String → Except (Option String) (String → Bool)

namespace Pattern

def isMeta (c : Char) : Bool :=
  ['\\', '.', '+', '*', '?', '(', ')', '|', '[', ']', '\x7b', '\x7d', '^', '$', '#', '&',
    '-', '~'].contains c

/-- The text of a pattern that matches exactly these characters. -/
def escape (cs : List Char) : List Char :=
  cs.flatMap fun c => if isMeta c then ['\\', c] else [c]

end Pattern

/-! ## Wildcards -/

/-- Where a text test has wildcards.  Without any, the text may stand anywhere, as it may
with one at both ends. -/
inductive Wildcards where
  | bothEnds
  | atEnd
  | atStart
  | nowhere
deriving DecidableEq, Repr

/-- The pattern of a text with wildcards: an end without one is anchored if the other end
has one. -/
def Wildcards.anchored (wildcards : Wildcards) (text : List Char) : List Char :=
  match wildcards with
  | .bothEnds => Pattern.escape text
  | .atEnd => '^' :: Pattern.escape text
  | .atStart => Pattern.escape text ++ ['$']
  | .nowhere => Pattern.escape text

end DocumentStore
