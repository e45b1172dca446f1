import DocumentStore.Collection.Request
import DocumentStore.Proofs.Document.Paths
import DocumentStore.Proofs.Memory.Scans

/-!
# Filters by identifier

When the identifier field has no dot, the filters that address records look at the
identifier of a record alone and never fail.
-/

namespace DocumentStore.Collection

variable {c : Collection} {reader : PatternReader}

theorem readIds_eq_ok_iff {operation : Operation} {ids : IdentifierList}
    {read : List Identifier} :
    c.readIds operation ids = .ok read ↔ ids.identifiers ≠ [] ∧ read = ids.identifiers := by
  unfold readIds
  split
  · next hnone => simp [hnone]
  · next first rest hids => simp [hids, eq_comm]

variable (hdot : '.' ∉ c.idField.toList)

include hdot

theorem evaluate_keyIs (id : Identifier) (record : Document) :
    (c.keyIs id).evaluate reader record =
      .ok (Comparison.foundEqual (Fields.get? c.idField record) id.stored) := by
  rw [← Document.valueOf?_of_dotless hdot]
  rfl

theorem accepts_keyIs (id : Identifier) (record : Document) :
    (c.keyIs id).accepts reader record =
      Comparison.foundEqual (Fields.get? c.idField record) id.stored :=
  Predicate.accepts_of_ok (evaluate_keyIs hdot id record)

omit hdot in
theorem accepts_keyIn (ids : List Identifier) (record : Document) :
    (c.keyIn ids).accepts reader record =
      ids.any fun id => (c.keyIs id).accepts reader record := by
  have hone (id : Identifier) : (c.keyIs id).accepts reader record =
      Comparison.foundEqual (Document.valueOf? c.idField record) id.stored :=
    Predicate.accepts_of_ok rfl
  have hall : (c.keyIn ids).accepts reader record =
      (ids.map Identifier.stored).any
        (Comparison.foundEqual (Document.valueOf? c.idField record)) :=
    Predicate.accepts_of_ok rfl
  rw [hall, List.any_map]
  exact congrArg ids.any (funext fun id => (hone id).symm)

theorem accepts_oneOf (values : List Value) (record : Document) :
    (Predicate.oneOf c.idField values).accepts reader record =
      values.any (Comparison.foundEqual (Fields.get? c.idField record)) := by
  rw [← Document.valueOf?_of_dotless hdot]
  exact Predicate.accepts_of_ok rfl

omit hdot in
theorem foundEqual_of_equal {stored wanted : Value}
    (h : stored.comparand.equal wanted.comparand = true) :
    Comparison.foundEqual (some stored) wanted = true := by
  simp [Comparison.foundEqual, Value.testedValues, h]

omit hdot in
theorem foundEqual_of_mem {items : List Value} {stored wanted : Value} (hmem : stored ∈ items)
    (h : stored.comparand.equal wanted.comparand = true) :
    Comparison.foundEqual (some (.array items)) wanted = true := by
  simp only [Comparison.foundEqual, Value.testedValues, List.any_cons, List.any_map,
    Bool.or_eq_true, List.any_eq_true]
  exact .inr ⟨stored, hmem, h⟩

theorem not_equal_of_not_accepts {id : Identifier} {record : Document} {stored : Value}
    (hstored : Fields.get? c.idField record = some stored)
    (h : (c.keyIs id).accepts reader record = false) :
    stored.comparand.equal id.stored.comparand = false := by
  rw [accepts_keyIs hdot, hstored] at h
  by_contra hequal
  rw [foundEqual_of_equal (Bool.not_eq_false _ ▸ hequal)] at h
  exact Bool.noConfusion h

end DocumentStore.Collection
