import DocumentStore.Text.Hex

/-!
# Object identifiers

Twelve bytes, written as 24 hexadecimal digits and read in either case.
-/

namespace DocumentStore

structure ObjectId where
  value : BitVec 96
deriving DecidableEq, Repr

namespace ObjectId

def ofNat (n : Nat) : ObjectId := ⟨BitVec.ofNat 96 n⟩

def hexDigits (id : ObjectId) : List Char := Text.Hex.encode 24 id.value.toNat

def toHex (id : ObjectId) : String := String.ofList id.hexDigits

/-- Only a text of 24 hexadecimal digits is read. -/
def ofHex? (cs : List Char) : Option ObjectId :=
  if cs.length = 24 then (Text.Hex.decode? cs).map ofNat else none

def order (a b : ObjectId) : Ordering := compare a.value.toNat b.value.toNat

end ObjectId

end DocumentStore
