import DocumentStore.Number.Binary64

/-!
# Shortest decimal text

The text of a finite number has the digits of the coarsest decimal grid that has a
point among the reals rounding to it; of two such neighbours the nearer one.  A
`Layout` then decides where the point goes and how the rest is spelled.
-/

namespace DocumentStore

namespace Binary64

/-- A positive decimal `digits * 10 ^ exponent`. -/
structure ScaledDigits where
  digits : Nat
  exponent : Int
deriving DecidableEq, Repr

inductive Tie
  | upper
  | even
deriving DecidableEq, Repr

/-! ## The coarsest grid -/

/-- The reals that round to a positive finite number, as naturals over `2 ^ 1077`;
the ends belong to it when the significand is even. -/
structure RoundingInterval where
  lower : Nat
  center : Nat
  upper : Nat
  closed : Bool

def roundingInterval (x : Binary64) : RoundingInterval :=
  let m := x.significand
  let unit := 1 <<< x.scale
  let below := if m = hiddenBit ∧ 1 < x.scale then 1 else 2
  { lower := (4 * m - below) * unit
    center := 4 * m * unit
    upper := (4 * m + 2) * unit
    closed := m % 2 = 0 }

namespace RoundingInterval

/-- The naturals `num` and `den` with `num / den = value / 2 ^ 1077 / 10 ^ exponent`. -/
private def onGrid (value : Nat) (exponent : Int) : Nat × Nat :=
  if 0 ≤ exponent then (value, Nat.pow 10 exponent.toNat <<< 1077)
  else (value * Nat.pow 10 (-exponent).toNat, 1 <<< 1077)

/-- Whether the grid point `digits * 10 ^ exponent` rounds to the number. -/
def contains (i : RoundingInterval) (digits : Nat) (exponent : Int) : Bool :=
  let (low, den) := onGrid i.lower exponent
  let (high, _) := onGrid i.upper exponent
  let point := digits * den
  if i.closed then low ≤ point && point ≤ high else low < point && point < high

def gridPoint? (i : RoundingInterval) (tie : Tie) (exponent : Int) : Option Nat :=
  let (num, den) := onGrid i.center exponent
  let q := num / den
  let twice := 2 * (num % den)
  let upperNearer :=
    den < twice || (twice == den && (tie == .upper || q % 2 == 1))
  match i.contains q exponent, i.contains (q + 1) exponent with
  | true, true => some (if upperNearer then q + 1 else q)
  | true, false => some q
  | false, true => some (q + 1)
  | false, false => none

/-- Tries grids from coarse to fine. -/
def coarsest (i : RoundingInterval) (tie : Tie) : Nat → Int → ScaledDigits
  | 0, exponent => ⟨0, exponent⟩
  | steps + 1, exponent =>
    match i.gridPoint? tie exponent with
    | some digits => ⟨digits, exponent⟩
    | none => i.coarsest tie steps (exponent - 1)

end RoundingInterval

/-- No double needs a grid coarser than `10 ^ 309` or finer than `10 ^ -1074`, and those of
a scale below 1000 are smaller than one. -/
def shortest (x : Binary64) (tie : Tie) : ScaledDigits :=
  let start : Int := if x.scale < 1000 then 0 else 309
  x.roundingInterval.coarsest tie 1400 start

/-! ## Layout -/

/-- How digits are laid out as text. -/
structure Layout where
  tie : Tie
  /-- Whether a number whose first digit stands for `10 ^ exponent` is written without
  an exponent. -/
  positional : Int → Bool
  /-- Written behind the digits of a whole number. -/
  wholeMark : String
  nan : String
  infinity : String

private def digitText (n : Nat) : String := String.ofList (Nat.toDigits 10 n)

private def zeros (n : Nat) : String := String.ofList (List.replicate n '0')

/-- The digits with the point put where `exponent` says, and no exponent. -/
def ScaledDigits.positional (d : ScaledDigits) (wholeMark : String) : String :=
  let digits := Nat.toDigits 10 d.digits
  if 0 ≤ d.exponent then
    String.ofList digits ++ zeros d.exponent.toNat ++ wholeMark
  else
    let places := (-d.exponent).toNat
    if places < digits.length then
      String.ofList (digits.take (digits.length - places)) ++ "."
        ++ String.ofList (digits.drop (digits.length - places))
    else "0." ++ zeros (places - digits.length) ++ String.ofList digits

/-- One digit before the point, and an exponent that always has a sign. -/
def ScaledDigits.scientific (d : ScaledDigits) : String :=
  let digits := Nat.toDigits 10 d.digits
  let exponent := d.exponent + digits.length - 1
  let fraction := digits.drop 1
  String.ofList (digits.take 1)
    ++ (if fraction.isEmpty then "" else "." ++ String.ofList fraction)
    ++ (if exponent < 0 then "e-" else "e+") ++ digitText exponent.natAbs

def format (layout : Layout) (x : Binary64) : String :=
  let sign := if x.negative then "-" else ""
  if x.isNaN then layout.nan
  else if x.isInfinite then sign ++ layout.infinity
  else if x.isZero then sign ++ "0" ++ layout.wholeMark
  else
    let d := x.shortest layout.tie
    let leading := d.exponent + (Nat.toDigits 10 d.digits).length - 1
    sign ++ if layout.positional leading then d.positional layout.wholeMark else d.scientific

def plainLayout : Layout where
  tie := .upper
  positional := fun _ => true
  wholeMark := ""
  nan := "NaN"
  infinity := "inf"

def plain (x : Binary64) : String := x.format plainLayout

end Binary64

end DocumentStore
