import DocumentStore.Memory.Write
import DocumentStore.Proofs.Predicate.PatternReaders
import DocumentStore.Proofs.Value.Widths

/-!
# Decisions of the store and wide integers

Filters, sort orders and the search for duplicates see comparands alone.  So a store whose integers
are all of 64 bits decides as one with integers of both widths does, and an insertion leaves the
same records in both, up to the width.
-/

namespace DocumentStore

/-! ## Filters -/

namespace Comparison

theorem foundEqual_widened (found : Option Value) (value : Value) :
    foundEqual (found.map Value.widened) value.widened = foundEqual found value := by
  cases found <;>
    simp only [foundEqual, Option.map_some, Option.map_none, Value.testedValues_widened,
      Value.comparand_widened]

theorem foundOrdered_widened (found : Option Value) (value : Value) (accepts : Ordering → Bool) :
    foundOrdered (found.map Value.widened) value.widened accepts =
      foundOrdered found value accepts := by
  cases found <;>
    simp only [foundOrdered, Option.map_some, Option.map_none, Value.testedValues_widened,
      Value.comparand_widened]

theorem holds_widened (op : Comparison) (found : Option Value) (value : Value) :
    op.holds (found.map Value.widened) value.widened = op.holds found value := by
  have hequal : foundEqual (found.map Value.widened) ∘ Value.widened = foundEqual found :=
    funext fun _ => foundEqual_widened found _
  cases op with
  | eq | ne => simp only [holds, foundEqual_widened]
  | gt | gte | lt | lte => exact foundOrdered_widened ..
  | oneOf | noneOf => simp only [holds, Value.members_widened, List.any_map, hequal]
  | allOf =>
      simp only [holds, Value.members_widened, List.all_map, List.isEmpty_map, hequal]

end Comparison

theorem Pattern.accepts_widened (reader : PatternReader) (regex : String)
    (found : Option Value) :
    accepts reader regex (found.map Value.widened) = accepts reader regex found := by
  cases found <;>
    simp only [accepts, isFoundIn, Option.map_some, Option.map_none,
      Value.testedValues_widened]

namespace Predicate

mutual

/-- The filter with wide integers in all the values that it compares with. -/
def widened : Predicate → Predicate
  | .and children => .and (widenedAll children)
  | .or children => .or (widenedAll children)
  | .nor children => .nor (widenedAll children)
  | .not child => .not child.widened
  | .compare field op value => .compare field op value.widened
  | .matchAll => .matchAll
  | .pattern field kind regex => .pattern field kind regex
  | .unrecognized text => .unrecognized text

def widenedAll : List Predicate → List Predicate
  | [] => []
  | child :: children => child.widened :: widenedAll children

end

mutual

theorem evaluate_widened (reader : PatternReader) (record : Document) :
    ∀ p : Predicate, p.widened.evaluate reader record.widened = p.evaluate reader record
  | .matchAll | .unrecognized _ => rfl
  | .and children => evaluateAll_widened reader record children
  | .or children => evaluateAny_widened reader record children
  | .nor children => congrArg (Except.map (!·)) (evaluateAny_widened reader record children)
  | .not child => congrArg (Except.map (!·)) (evaluate_widened reader record child)
  | .compare field op value => by
    rw [widened, evaluate, evaluate, Document.valueOf?_widened,
      Comparison.holds_widened]
  | .pattern field kind regex => by
    rw [widened, evaluate, evaluate, Document.valueOf?_widened,
      Pattern.accepts_widened]

theorem evaluateAll_widened (reader : PatternReader) (record : Document) :
    ∀ ps : List Predicate, evaluateAll reader record.widened (widenedAll ps) =
      evaluateAll reader record ps
  | [] => rfl
  | p :: ps => by
    rw [widenedAll, evaluateAll, evaluateAll, evaluate_widened reader record p,
      evaluateAll_widened reader record ps]

theorem evaluateAny_widened (reader : PatternReader) (record : Document) :
    ∀ ps : List Predicate, evaluateAny reader record.widened (widenedAll ps) =
      evaluateAny reader record ps
  | [] => rfl
  | p :: ps => by
    rw [widenedAll, evaluateAny, evaluateAny, evaluate_widened reader record p,
      evaluateAny_widened reader record ps]

end

end Predicate

/-! ## Sort orders -/

theorem SortKey.comparand_widened (key : SortKey) (record : Document) :
    key.comparand record.widened = key.comparand record := by
  rw [comparand, comparand, Document.valueOf?_widened]
  cases record.valueOf? key.field with
  | none => rfl
  | some value => exact value.comparand_widened

theorem SortOrder.ordering_widened (order : SortOrder) (a b : Document) :
    order.ordering a.widened b.widened = order.ordering a b := by
  induction order with
  | nil => rfl
  | cons key keys ih =>
      rw [ordering, ordering, ih, SortKey.ordering, SortKey.ordering, key.comparand_widened,
        key.comparand_widened]

/-! ## Insertions -/

namespace Memory.Store

def widened (store : Store) : Store :=
  { store with
    collections := store.collections.map fun entry => (entry.1, entry.2.map Document.widened) }

variable (store : Store) (collection : String) (record : Document)

theorem idField_widened : store.widened.idField = store.idField := rfl

theorem records_widened :
    store.widened.records collection = (store.records collection).map Document.widened := by
  rw [records, records, widened, Fields.get?_map]
  cases Fields.get? collection store.collections <;> rfl

theorem setRecords_widened (records : List Document) :
    store.widened.setRecords collection (records.map Document.widened) =
      (store.setRecords collection records).widened :=
  congrArg (fun collections => { store with collections })
    (Fields.insert_map (List.map Document.widened) collection records store.collections)

theorem ensureCollection_widened :
    store.widened.ensureCollection collection = (store.ensureCollection collection).widened := by
  rw [ensureCollection, records_widened, setRecords_widened, ensureCollection]

theorem isPresent_widened (field : String) :
    isPresent record.widened field = isPresent record field := by
  rw [isPresent, isPresent, Document.valueOf?_widened]
  cases record.valueOf? field with
  | none => rfl
  | some value => exact congrArg (!·) value.isNull_widened

theorem missingField?_widened :
    store.widened.missingField? collection record.widened =
      store.missingField? collection record := by
  rw [missingField?, missingField?]
  simp only [isPresent_widened]
  rfl

/-- A generated identifier has no width. -/
theorem ensureId_widened :
    store.widened.ensureId record.widened =
      ((store.ensureId record).1.widened, (store.ensureId record).2.widened) := by
  rw [ensureId, ensureId, Document.contains_widened, idField_widened]
  by_cases hid : Fields.contains store.idField record = true
  · rw [if_pos hid, if_pos hid]
  · rw [if_neg hid, if_neg hid]
    have hfields := Fields.insertAll_map Value.widened
      [(store.idField, Value.objectId (store.freshId store.issued))] record
    simp only [← Value.widenedFields_eq_map] at hfields
    exact Prod.ext hfields rfl

theorem hasId_widened (idField : String) (id : Value) :
    hasId idField id.widened record.widened = hasId idField id record := by
  rw [hasId, hasId, Document.get?_widened]
  cases Fields.get? idField record with
  | none => rfl
  | some stored =>
      dsimp only [Option.map_some]
      rw [Value.comparand_widened, Value.comparand_widened]

theorem duplicateText_widened (idField : String) (id : Value) :
    duplicateText idField id.widened = duplicateText idField id := by
  unfold duplicateText
  rw [Value.display_widened]

theorem refusal?_widened :
    store.widened.refusal? collection record.widened = store.refusal? collection record := by
  have hid : (Fields.get? store.idField record.widened).getD .null =
      ((Fields.get? store.idField record).getD .null).widened := by
    rw [Document.get?_widened]
    cases Fields.get? store.idField record <;> rfl
  have hheld (id : Value) : hasId store.idField id.widened ∘ Document.widened =
      hasId store.idField id :=
    funext fun other => hasId_widened other store.idField id
  rw [refusal?, refusal?, missingField?_widened, records_widened,
    idField_widened, hid, List.any_map, hheld, duplicateText_widened]

theorem insertOne_widened :
    store.widened.insertOne collection record.widened =
      ((store.insertOne collection record).1, (store.insertOne collection record).2.widened) := by
  rw [insertOne, insertOne, ensureId_widened]
  dsimp only
  rw [refusal?_widened]
  cases (store.ensureId record).2.refusal? collection (store.ensureId record).1 with
  | some text => rfl
  | none =>
      have hrecords := setRecords_widened (store.ensureId record).2 collection
        ((store.ensureId record).2.records collection ++ [(store.ensureId record).1])
      rw [List.map_append, ← records_widened] at hrecords
      exact congrArg (Prod.mk InsertStatus.written) hrecords

theorem insertEach_widened (ordered : Bool) (records : List Document) :
    insertEach collection ordered store.widened (records.map Document.widened) =
      ((insertEach collection ordered store records).1,
        (insertEach collection ordered store records).2.widened) := by
  induction records generalizing store with
  | nil => rfl
  | cons record records ih =>
      rw [List.map_cons, insertEach, insertEach, insertOne_widened]
      dsimp only
      split
      · rw [List.map_map]
        rfl
      · rw [ih]

theorem insert_widened (records : List Document) (ordered : Bool) :
    store.widened.insert collection (records.map Document.widened) ordered =
      ((store.insert collection records ordered).1,
        (store.insert collection records ordered).2.widened) := by
  rw [insert, insert, ensureCollection_widened, insertEach_widened]

end Memory.Store

/-- The width of integers decides nothing: neither whether a filter accepts a record or fails on
it, whatever patterns it can read, nor how two records are sorted, nor what becomes of the records
of a batch. -/
theorem decisions_widened (p : Predicate) (order : SortOrder) (a b : Document)
    (reader : PatternReader) (store : Memory.Store) (collection : String)
    (records : List Document) (ordered : Bool) :
    p.widened.evaluate reader a.widened = p.evaluate reader a ∧
    order.ordering a.widened b.widened = order.ordering a b ∧
    (store.widened.insert collection (records.map Document.widened) ordered).1 =
      (store.insert collection records ordered).1 ∧
    (store.widened.insert collection (records.map Document.widened) ordered).2 =
      (store.insert collection records ordered).2.widened := by
  rw [store.insert_widened]
  exact ⟨p.evaluate_widened reader a, order.ordering_widened a b, rfl, rfl⟩

end DocumentStore
