/-!
# Binary64 numbers

A binary64 number is its 64 bits.  Comparison reads the bits as a signed integer
key; a computed number is the one nearest to an exact quotient of naturals, ties
going to the even significand.
-/

namespace DocumentStore

structure Binary64 where
  bits : UInt64
deriving DecidableEq, Repr

namespace Binary64

/-! ## Parts of the bit pattern -/

def signBit : Nat := 0x8000000000000000

/-- The lowest bit of the exponent field, `2 ^ 52`; normal numbers have it in front of
their fraction. -/
def hiddenBit : Nat := 0x10000000000000

def negative (x : Binary64) : Bool := signBit ≤ x.bits.toNat

/-- The bits below the sign: the exponent field above a fraction of 52 bits. -/
def magnitude (x : Binary64) : Nat := x.bits.toNat % signBit

def infiniteMagnitude : Nat := 2047 * hiddenBit

def ofMagnitude (negative : Bool) (magnitude : Nat) : Binary64 :=
  ⟨UInt64.ofNat (if negative then magnitude + signBit else magnitude)⟩

def isNaN (x : Binary64) : Bool := infiniteMagnitude < x.magnitude

def isInfinite (x : Binary64) : Bool := x.magnitude = infiniteMagnitude

def isZero (x : Binary64) : Bool := x.magnitude = 0

def nan : Binary64 := ofMagnitude false (infiniteMagnitude + hiddenBit / 2)

/-- The exponent field, where the subnormal numbers share the least exponent 1. -/
def scale (x : Binary64) : Nat := max 1 (x.magnitude / hiddenBit)

/-- A finite number is `significand * 2 ^ scale / 2 ^ 1075` up to its sign. -/
def significand (x : Binary64) : Nat := x.magnitude - (x.scale - 1) * hiddenBit

/-! ## Order -/

/-- Both zeros have key 0, and a larger number has a larger key. -/
def key (x : Binary64) : Int :=
  if x.negative then -(x.magnitude : Int) else x.magnitude

/-- The order of two numbers, which a NaN has with none. -/
def compare? (x y : Binary64) : Option Ordering :=
  if x.isNaN || y.isNaN then none else some (compare x.key y.key)

/-- Numeric equality: the zeros are equal, and a NaN equals nothing. -/
def equal (x y : Binary64) : Bool := x.compare? y == some .eq

/-! ## Rounding -/

/-- The quotient rounded to the nearest natural, a half going to the even one. -/
def divNearest (num den : Nat) : Nat :=
  let q := num / den
  let r := 2 * (num % den)
  if r < den then q
  else if den < r then q + 1
  else q + q % 2

/-- The magnitude nearest to `num / den`; past the largest finite number it is infinite. -/
def nearest (num den : Nat) : Nat :=
  let scale := max 1 (Nat.log2 ((num <<< 1075) / den) - 52)
  if 2047 ≤ scale then infiniteMagnitude
  else (scale - 1) * hiddenBit + divNearest (num <<< 1075) (den <<< scale)

def ofRatio (negative : Bool) (num den : Nat) : Binary64 :=
  ofMagnitude negative (nearest num den)

def ofInt (n : Int) : Binary64 := ofRatio (n < 0) n.natAbs 1

def ofNat (n : Nat) : Binary64 := ofRatio false n 1

def mulFinite (x y : Binary64) : Binary64 :=
  ofRatio (x.negative != y.negative)
    ((x.significand * y.significand) <<< (x.scale + y.scale)) (1 <<< 2150)

def divFinite (x y : Binary64) : Binary64 :=
  ofRatio (x.negative != y.negative)
    (x.significand <<< x.scale) (y.significand <<< y.scale)

def negate (x : Binary64) : Binary64 := ofMagnitude (!x.negative) x.magnitude

end Binary64

end DocumentStore
