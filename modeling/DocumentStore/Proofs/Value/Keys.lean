import DocumentStore.Identifier
import DocumentStore.Predicate.Evaluation
import DocumentStore.Proofs.Value.ComparandEquality

/-!
# Values that key a record

A filter compares a value of one of these kinds as a whole and by its content, so a stored
key is found by the values that equal it and by no others.
-/

namespace DocumentStore

namespace Value

/-- A value of a kind that has an equality of its own and is compared as a whole. -/
def IsScalar : Value → Prop
  | .bool _ | .int32 _ | .int64 _ | .double _ | .string _ | .objectId _ | .dateTime _ => True
  | _ => False

/-- A scalar with an equality of its own; a NaN, which does not equal itself, is none. -/
def IsKey : Value → Prop
  | .bool _ | .int32 _ | .int64 _ | .string _ | .objectId _ | .dateTime _ => True
  | .double x => x.isNaN = false
  | _ => False

theorem isScalar_of_isKey {value : Value} (h : value.IsKey) : value.IsScalar := by
  cases value with
  | bool | int32 | int64 | double | string | objectId | dateTime => trivial
  | _ => exact h.elim

theorem testedValues_of_isScalar {value : Value} (h : value.IsScalar) :
    value.testedValues = [value.comparand] := by
  cases value with
  | array items => exact h.elim
  | _ => rfl

theorem equal_self_of_isKey {value : Value} (h : value.IsKey) :
    value.comparand.equal value.comparand = true := by
  cases value with
  | double x =>
      have hnan : x.isNaN = false := h
      simp [comparand, Comparand.equal, Binary64.equal, Binary64.compare?, hnan]
  | bool | int32 | int64 | string | objectId | dateTime => simp [comparand, Comparand.equal]
  | _ => exact h.elim

theorem wellKeyed_of_isKey {value : Value} (h : value.IsKey) : value.comparand.WellKeyed := by
  cases value with
  | array | document => exact h.elim
  | _ => trivial

theorem foundEqual_of_isScalar {stored : Value} (h : stored.IsScalar) (wanted : Value) :
    Comparison.foundEqual (some stored) wanted = stored.comparand.equal wanted.comparand := by
  simp [Comparison.foundEqual, testedValues_of_isScalar h]

theorem foundEqual_none_of_isScalar {wanted : Value} (h : wanted.IsScalar) :
    Comparison.foundEqual none wanted = false := by
  cases wanted with
  | bool | int32 | int64 | double | string | objectId | dateTime => rfl
  | _ => exact h.elim

theorem sameStored_eq_equal {stored : Value} (h : stored.IsScalar) (wanted : Value) :
    Identifier.sameStored stored wanted = stored.comparand.equal wanted.comparand := by
  have htime (a b : Int64) : (a == b) = (a.toInt == b.toInt) := by
    rw [Bool.eq_iff_iff, beq_iff_eq, beq_iff_eq, Int64.toInt_inj]
  cases stored with
  | bool | int32 | int64 | double | string | objectId | dateTime =>
      cases wanted <;>
        simp [comparand, Comparand.equal, Identifier.sameStored, integer?, same, htime]
  | _ => exact h.elim

/-! ## Keys that are compared exactly -/

/-- An ObjectId, a text, or an integer whatever its width. -/
inductive ExactKey where
  | objectId (id : ObjectId)
  | text (s : String)
  | int (n : Int)
deriving DecidableEq

/-- A double is none, for it equals every integer that it is the nearest double to. -/
def exactKey? : Value → Option ExactKey
  | .objectId id => some (.objectId id)
  | .string s => some (.text s)
  | .int32 n => some (.int n.toInt)
  | .int64 n => some (.int n.toInt)
  | _ => none

theorem isScalar_of_exactKey? {value : Value} (h : value.exactKey?.isSome = true) :
    value.IsScalar := by
  cases value with
  | int32 | int64 | string | objectId => trivial
  | _ => cases h

theorem equal_eq_of_exactKey? {a b : Value} {j k : ExactKey} (ha : a.exactKey? = some j)
    (hb : b.exactKey? = some k) : a.comparand.equal b.comparand = decide (j = k) := by
  cases a with
  | int32 | int64 | string | objectId =>
      cases ha
      cases b with
      | int32 | int64 | string | objectId =>
          cases hb
          simp [comparand, Comparand.equal, beq_eq_decide]
      | _ => cases hb
  | _ => cases ha

end Value

end DocumentStore
