import DocumentStore.Number.Binary64
import DocumentStore.Text.Blank

/-!
# Decimal numerals

A numeral is an optional sign, digits with an optional point, and an optional
exponent.  Its value is the binary64 number nearest to the decimal it writes.
-/

namespace DocumentStore

namespace Decimal

def digitValue (c : Char) : Nat := c.toNat - '0'.toNat

def ofDigits (digits : List Char) : Nat :=
  digits.foldl (fun n c => 10 * n + digitValue c) 0

def ofNat (n : Nat) : List Char := Nat.toDigits 10 n

/-- The canonical text of an integer: no plus sign and no leading zero. -/
def ofInt (n : Int) : List Char :=
  if n < 0 then '-' :: ofNat n.natAbs else ofNat n.natAbs

end Decimal

/-- The parts of a decimal numeral; at least one digit stands around the point. -/
structure Numeral where
  negative : Bool
  whole : List Char
  fraction : List Char
  exponent : Int
deriving DecidableEq, Repr

namespace Numeral

def takeSign : List Char → Bool × List Char
  | '+' :: rest => (false, rest)
  | '-' :: rest => (true, rest)
  | rest => (false, rest)

def takeDigits (cs : List Char) : List Char × List Char :=
  (cs.takeWhile Char.isDigit, cs.dropWhile Char.isDigit)

def takeFraction : List Char → List Char × List Char
  | '.' :: rest => takeDigits rest
  | rest => ([], rest)

/-- The exponent that ends a numeral; nothing may follow it. -/
def readExponent? : List Char → Option Int
  | [] => some 0
  | c :: rest =>
    if c = 'e' ∨ c = 'E' then
      let (negative, rest) := takeSign rest
      let (digits, rest) := takeDigits rest
      if digits.isEmpty || !rest.isEmpty then none
      else
        let value : Int := Decimal.ofDigits digits
        some (if negative then -value else value)
    else none

def read? (cs : List Char) : Option Numeral :=
  let (negative, rest) := takeSign cs
  let (whole, rest) := takeDigits rest
  let (fraction, rest) := takeFraction rest
  if whole.isEmpty && fraction.isEmpty then none
  else (readExponent? rest).map fun exponent => ⟨negative, whole, fraction, exponent⟩

/-- The number nearest to `digits * 10 ^ exponent`.  Beyond 310 places before the point
it is infinite, and beyond 330 behind it zero, whatever the digits are. -/
def nearest (negative : Bool) (digits : Nat) (exponent : Int) : Binary64 :=
  let leading := exponent + (Decimal.ofNat digits).length
  if digits = 0 ∨ leading < -330 then Binary64.ofMagnitude negative 0
  else if 310 < leading then Binary64.ofMagnitude negative Binary64.infiniteMagnitude
  else if 0 ≤ exponent then Binary64.ofRatio negative (digits * Nat.pow 10 exponent.toNat) 1
  else Binary64.ofRatio negative digits (Nat.pow 10 (-exponent).toNat)

def value (n : Numeral) : Binary64 :=
  nearest n.negative (Decimal.ofDigits (n.whole ++ n.fraction))
    (n.exponent - n.fraction.length)

/-- The integer of an optional sign and one digit or more. -/
def integer? (cs : List Char) : Option Int :=
  let (negative, digits) := takeSign cs
  if digits.isEmpty || !digits.all Char.isDigit then none
  else
    let size : Int := Decimal.ofDigits digits
    some (if negative then -size else size)

end Numeral

/-- The double that a text writes: a numeral, or the name of an infinite number or of a
NaN, in any case and behind an optional sign. -/
def Binary64.ofText? (cs : List Char) : Option Binary64 :=
  match Numeral.read? cs with
  | some numeral => some numeral.value
  | none =>
    let (negative, name) := Numeral.takeSign cs
    match Text.lower name with
    | ['i', 'n', 'f'] => some (ofMagnitude negative infiniteMagnitude)
    | ['i', 'n', 'f', 'i', 'n', 'i', 't', 'y'] => some (ofMagnitude negative infiniteMagnitude)
    | ['n', 'a', 'n'] => some nan
    | _ => none

end DocumentStore
