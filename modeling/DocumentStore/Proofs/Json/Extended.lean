import DocumentStore.Json.Document
import DocumentStore.Proofs.Identifier.NormalForm
import DocumentStore.Proofs.Literal
import DocumentStore.Proofs.Text.Base64

/-!
# Texts of extended JSON read back

Identifiers, integers, bytes and expressions are read from what extended JSON writes of them.  A
number that is not finite and plain bytes are written as something else.
-/

namespace DocumentStore

namespace Value

namespace Extended

theorem objectId?_toHex (id : ObjectId) : objectId? id.toHex = some (.objectId id) := by
  rw [objectId?, ObjectId.toHex, String.toList_ofList, ObjectId.ofHex?_hexDigits, Option.map_some]

theorem int64?_ofInt (n : Int64) :
    int64? (String.ofList (Decimal.ofInt n.toInt)) = some (.int64 n) := by
  rw [int64?, String.toList_ofList, Numeral.integer?_ofInt]
  have hfits : Int64.minValue.toInt ≤ n.toInt ∧ n.toInt ≤ Int64.maxValue.toInt :=
    ⟨n.minValue_le_toInt, n.toInt_le⟩
  simp only [Option.bind_eq_bind, Option.bind_some, if_pos hfits, Int64.ofInt_toInt,
    Option.pure_def]

theorem regularExpression?_ordered {pattern options : String} (hpattern : '\x00' ∉ pattern.toList)
    (hoptions : '\x00' ∉ options.toList)
    (hordered : options.toList.Pairwise fun a b => a.toNat ≤ b.toNat) :
    regularExpression? pattern options = some (.regularExpression pattern options) := by
  have hsorted : options.toList.mergeSort (fun a b => a.toNat ≤ b.toNat) = options.toList :=
    List.mergeSort_of_pairwise (hordered.imp fun h => decide_eq_true h)
  rw [regularExpression?, hsorted, if_neg (by simp [hpattern, hoptions])]
  exact congrArg (fun options => some (Value.regularExpression pattern options))
    String.ofList_toList

end Extended

/-- The values without parts that extended JSON keeps, up to the width of integers.  The number of
a decimal is kept in a stored list alone. -/
inductive IsKeptScalar : Value → Prop
  | null : IsKeptScalar .null
  | bool (b : Bool) : IsKeptScalar (.bool b)
  | int32 (n : Int32) : IsKeptScalar (.int32 n)
  | int64 (n : Int64) : IsKeptScalar (.int64 n)
  | double {x : Binary64} (hnumber : x.isNaN = false) (hfinite : x.isInfinite = false) :
    IsKeptScalar (.double x)
  | string (s : String) : IsKeptScalar (.string s)
  | objectId (id : ObjectId) : IsKeptScalar (.objectId id)
  | dateTime (milliseconds : Int64) : IsKeptScalar (.dateTime milliseconds)
  | timestamp (time increment : UInt32) : IsKeptScalar (.timestamp time increment)
  | binary {subtype : UInt8} (hsubtype : subtype ≠ 0) (bytes : List UInt8) :
    IsKeptScalar (.binary subtype bytes)
  | symbol (name : String) : IsKeptScalar (.symbol name)
  | javaScript (code : String) : IsKeptScalar (.javaScript code)
  | regularExpression {pattern options : String} (hpattern : '\x00' ∉ pattern.toList)
    (hoptions : '\x00' ∉ options.toList)
    (hordered : options.toList.Pairwise fun a b => a.toNat ≤ b.toNat) :
    IsKeptScalar (.regularExpression pattern options)
  | pointer (collection : String) (id : ObjectId) : IsKeptScalar (.pointer collection id)
  | undefined : IsKeptScalar .undefined
  | minKey : IsKeptScalar .minKey
  | maxKey : IsKeptScalar .maxKey

end Value

end DocumentStore
