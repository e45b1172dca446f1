import DocumentStore.Number.Numeral

/-!
# Decimal128 numbers

A decimal128 number is its 128 bits: a sign above a NaN, an infinity, or a coefficient of
up to 34 digits with a power of ten.  Numbers of one size with different coefficients, such
as 1.0 and 1.00, are different numbers.
-/

namespace DocumentStore

structure Decimal128 where
  bits : BitVec 128
deriving DecidableEq, Repr

namespace Decimal128

/-- What the bits below the sign stand for. -/
inductive Form where
  | nan (signalling : Bool)
  | infinity
  | finite (coefficient : Nat) (exponent : Int)
deriving DecidableEq, Repr

def greatestCoefficient : Nat := 9999999999999999999999999999999999

def precision : Nat := 34

def leastExponent : Int := -6176

def greatestExponent : Int := 6111

/-! ## Bits -/

def negative (x : Decimal128) : Bool := 1 <<< 127 ≤ x.bits.toNat

def exponentAt (low : Nat) (x : Decimal128) : Int :=
  (x.bits.toNat >>> low % (1 <<< 14) : Nat) + leastExponent

/-- The five bits below the sign tell the forms apart.  A coefficient above the greatest
one counts as 0, as do all those with two leading ones in their exponent. -/
def form (x : Decimal128) : Form :=
  let head := x.bits.toNat >>> 122 % 32
  if head = 31 then .nan (x.bits.toNat >>> 121 % 2 = 1)
  else if head = 30 then .infinity
  else if 24 ≤ head then .finite 0 (x.exponentAt 111)
  else
    let coefficient := x.bits.toNat % (1 <<< 113)
    .finite (if coefficient ≤ greatestCoefficient then coefficient else 0) (x.exponentAt 113)

def ofForm (negative : Bool) (form : Form) : Decimal128 :=
  let low : Nat :=
    match form with
    | .nan signalling => (31 <<< 122) + (if signalling then 1 <<< 121 else 0)
    | .infinity => 30 <<< 122
    | .finite coefficient exponent => ((exponent - leastExponent).toNat <<< 113) + coefficient
  ⟨BitVec.ofNat 128 ((if negative then 1 <<< 127 else 0) + low)⟩

def bytes (x : Decimal128) : List UInt8 :=
  (List.range 16).map fun i => UInt8.ofNat (x.bits.toNat >>> (8 * i))

def ofBytes? (bytes : List UInt8) : Option Decimal128 :=
  if bytes.length = 16 then
    some ⟨BitVec.ofNat 128 (bytes.foldr (fun byte n => 256 * n + byte.toNat) 0)⟩
  else none

/-! ## Writing -/

/-- With no more than five zeros behind the point the digits stand in place, and otherwise
the point comes behind the first of them. -/
def finiteText (digits : List Char) (exponent : Int) : List Char :=
  let leading := exponent + digits.length - 1
  if exponent ≤ 0 ∧ -6 ≤ leading then
    let places := (-exponent).toNat
    if places = 0 then digits
    else if digits.length ≤ places then
      '0' :: '.' :: List.replicate (places - digits.length) '0' ++ digits
    else digits.take (digits.length - places) ++ '.' :: digits.drop (digits.length - places)
  else
    digits.take 1 ++ (if digits.length = 1 then [] else '.' :: digits.drop 1)
      ++ 'E' :: (if 0 < leading then ['+'] else []) ++ Decimal.ofInt leading

def text (x : Decimal128) : String :=
  let sign := if x.negative then "-" else ""
  match x.form with
  | .nan _ => "NaN"
  | .infinity => sign ++ "Infinity"
  | .finite coefficient exponent =>
    sign ++ String.ofList (finiteText (Decimal.ofNat coefficient) exponent)

/-! ## Reading -/

def cutAt (c : Char) (cs : List Char) : List Char × Option (List Char) :=
  match cs.dropWhile (· != c) with
  | [] => (cs, none)
  | _ :: rest => (cs.takeWhile (· != c), some rest)

/-- Digits without leading zeros, at least one. -/
def significant (digits : List Char) : List Char :=
  match digits.dropWhile (· == '0') with
  | [] => ['0']
  | digits => digits

/-- The first digits, where only zeros are left behind them. -/
def keepDigits? (count : Nat) (digits : List Char) : Option (List Char) :=
  if (digits.drop count).all (· == '0') then some (digits.take count) else none

/-- Zeros move between digits and exponent until both fit; a zero fits any exponent.
Nothing is rounded. -/
def fit? (digits : List Char) (exponent : Int) : Option (List Char × Int) := do
  let kept ← keepDigits? precision digits
  let exponent := exponent + (digits.length - precision : Nat)
  if kept = ['0'] then return (kept, max leastExponent (min exponent greatestExponent))
  else if exponent < leastExponent then
    let excess := (leastExponent - exponent).toNat
    if kept.length < excess then none
    else return (← keepDigits? (kept.length - excess) kept, leastExponent)
  else if greatestExponent < exponent then
    let excess := (exponent - greatestExponent).toNat
    if precision < kept.length + excess then none
    else return (kept ++ List.replicate excess '0', greatestExponent)
  else return (kept, exponent)

def natural? : List Char → Option Nat
  | '+' :: digits => digitsOnly? digits
  | digits => digitsOnly? digits
where
  digitsOnly? (digits : List Char) : Option Nat :=
    if digits.isEmpty || !digits.all Char.isDigit then none else some (Decimal.ofDigits digits)

/-- An exponent has 128 bits, and no digits at all are a zero. -/
def finite? (cs : List Char) : Option Form := do
  let (digits, exponent) := cutAt 'e' cs
  let exponent ← Numeral.integer? (exponent.getD ['0'])
  let (whole, fraction) := cutAt '.' digits
  let fraction := fraction.getD []
  if exponent < -(1 <<< 127 : Nat) ∨ (1 <<< 127 : Nat) ≤ exponent then none
  else
    let (digits, exponent) ← fit? (significant (whole ++ fraction)) (exponent - fraction.length)
    return .finite (← natural? digits) exponent

def read? (cs : List Char) : Option Decimal128 :=
  let (negative, rest) := Numeral.takeSign cs
  let form : Option Form :=
    match Text.lower rest with
    | ['n', 'a', 'n'] => some (.nan false)
    | ['s', 'n', 'a', 'n'] => some (.nan true)
    | ['i', 'n', 'f'] => some .infinity
    | ['i', 'n', 'f', 'i', 'n', 'i', 't', 'y'] => some .infinity
    | finite => finite? finite
  form.map (ofForm negative)

end Decimal128

end DocumentStore
