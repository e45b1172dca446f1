import DocumentStore.Json.Basic

/-!
# JSON numbers

Integers of 64 bits are read exactly.  Any other number becomes a double: its
significand keeps the leading digits that fit 64 bits, is rounded to a double, and
is scaled by a power of ten with one rounding for each step.
-/

namespace DocumentStore.Json

def significandBound : Nat := UInt64.size

/-- Reads digits onto a significand while it fits 64 bits: the significand, how many
digits were read, and the digits left. -/
def takeSignificand (significand count : Nat) : List Char → Nat × Nat × List Char
  | [] => (significand, count, [])
  | c :: rest =>
    let next := 10 * significand + Decimal.digitValue c
    if next < significandBound then takeSignificand next (count + 1) rest
    else (significand, count, c :: rest)

/-- Scales by a power of ten: dividing by `10 ^ 308` until the exponent is in the range
of a double, then one product or quotient.  Nothing if the result overflows. -/
def scaleByTen (x : Binary64) (exponent : Int) : Nat → Option Binary64
  | 0 => some x
  | steps + 1 =>
    if 0 ≤ exponent then
      if exponent ≤ 308 then
        let y := x.mulFinite (Binary64.ofNat (Nat.pow 10 exponent.toNat))
        if y.isInfinite then none else some y
      else if x.isZero then some x
      else none
    else if -308 ≤ exponent then
      some (x.divFinite (Binary64.ofNat (Nat.pow 10 (-exponent).toNat)))
    else if x.isZero then some x
    else scaleByTen (x.divFinite (Binary64.ofNat (Nat.pow 10 308))) (exponent + 308) steps

def floatOf? (n : Numeral) : Option Binary64 :=
  let (whole, _, wholeLeft) := takeSignificand 0 0 n.whole
  let (significand, places, _) := takeSignificand whole 0 n.fraction
  let exponent := n.exponent + wholeLeft.length - places
  (scaleByTen (Binary64.ofNat significand) exponent 8).map fun x =>
    if n.negative then x.negate else x

/-- No plus sign in front, no zero before other digits, and digits on both sides of a point. -/
def isPlain (cs : List Char) (n : Numeral) : Bool :=
  cs.head? != some '+' && (n.whole == ['0'] || n.whole.head?.any (· != '0'))
    && (!cs.contains '.' || !n.fraction.isEmpty)

def number? (cs : List Char) : Option Json := do
  let n ← (Numeral.read? cs).filter (isPlain cs)
  let size := Decimal.ofDigits n.whole
  if cs.any (fun c => c == '.' || c == 'e' || c == 'E') || significandBound ≤ size then
    return .float (← floatOf? n)
  else if n.negative then
    if size = 0 then return .float (Binary64.ofMagnitude true 0)
    else if Int64.minValue.toInt ≤ -size then return .int (-size)
    else return .float (Binary64.ofRatio true size 1)
  else return .int size

end DocumentStore.Json
