/-!
# Hexadecimal text

Numbers of a fixed width and bytes as hexadecimal digits.
-/

namespace DocumentStore.Text.Hex

def digit? (c : Char) : Option Nat :=
  if '0' ≤ c ∧ c ≤ '9' then some (c.toNat - '0'.toNat)
  else if 'a' ≤ c ∧ c ≤ 'f' then some (c.toNat - 'a'.toNat + 10)
  else if 'A' ≤ c ∧ c ≤ 'F' then some (c.toNat - 'A'.toNat + 10)
  else none

/-- The last `width` digits of a number, in lower case. -/
def encode (width : Nat) (n : Nat) : List Char :=
  match width with
  | 0 => []
  | width + 1 => encode width (n / 16) ++ [Nat.digitChar (n % 16)]

def decode? (cs : List Char) : Option Nat :=
  cs.foldlM (fun n c => (digit? c).map (16 * n + ·)) 0

def encodeBytes (bytes : List UInt8) : List Char :=
  bytes.flatMap fun byte => encode 2 byte.toNat

def decodeBytes? : List Char → Option (List UInt8)
  | [] => some []
  | [_] => none
  | high :: low :: rest => do
    let byte ← decode? [high, low]
    return UInt8.ofNat byte :: (← decodeBytes? rest)

end DocumentStore.Text.Hex
