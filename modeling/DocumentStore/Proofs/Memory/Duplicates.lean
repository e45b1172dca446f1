import DocumentStore.Proofs.Memory.Identifiers
import DocumentStore.Proofs.Value.Content

/-!
# Equal values in the store

A filter finds a value by the values that agree with it, and an insertion refuses a record as a
duplicate of one whose identifier agrees with its own, both as far as the store compares them.
-/

namespace DocumentStore.Memory.Store

/-! ## Tests of a field -/

theorem evaluate_eq_iff {reader : PatternReader} {record : Document} {field : String}
    {a : Value} (hfound : record.valueOf? field = some a) (harray : ∀ items, a ≠ .array items)
    (b : Value) :
    (Predicate.compare field .eq b).evaluate reader record = .ok true ↔
      a.comparand.equal b.comparand = true := by
  have htested : a.testedValues = [a.comparand] := by
    cases a with
    | array items => exact absurd rfl (harray items)
    | _ => rfl
  rw [Predicate.evaluate, hfound, Comparison.holds, Comparison.foundEqual, htested]
  simp

/-! ## Refused records -/

theorem toList_getElem?_one_append {first : String} (h : 1 < first.toList.length) (rest : String) :
    (first ++ rest).toList[1]? = first.toList[1]? := by
  rw [String.toList_append, List.getElem?_append_left h]

/-- The texts of the two refusals differ in their second letters. -/
theorem missingFieldText_ne_duplicateText (field idField : String) (id : Value) :
    missingFieldText field ≠ duplicateText idField id := by
  intro h
  unfold missingFieldText duplicateText at h
  simp only [String.append_assoc] at h
  have hsecond := congrArg (fun text => text.toList[1]?) h
  rw [toList_getElem?_one_append (by decide), toList_getElem?_one_append (by decide)] at hsecond
  exact absurd hsecond (by decide)

variable {store : Store} {collection : String} {ordered : Bool}

theorem status_insertEach {records : List Document} {i : Nat} {record : Document} {text : String}
    (hrecord : records[i]? = some record)
    (h : (insertEach collection ordered store records).1[i]? = some (.failed text)) :
    ((insertEach collection ordered store (records.take i)).2.insertOne collection record).1 =
      .failed text := by
  induction records generalizing store i with
  | nil => cases hrecord
  | cons first records ih =>
      rw [insertEach] at h
      cases i with
      | zero =>
          cases hrecord
          dsimp only at h
          split at h <;> exact Option.some.inj h
      | succ i =>
          dsimp only at h
          split at h
          · -- behind a failure of an ordered insertion nothing is attempted
            rw [List.getElem?_cons_succ, List.getElem?_map, Option.map_eq_some_iff] at h
            obtain ⟨_, -, hstatus⟩ := h
            cases hstatus
          · next hgoesOn =>
            rw [List.take_succ_cons, insertEach]
            dsimp only
            rw [if_neg hgoesOn]
            exact ih hrecord h

theorem refusal?_of_status {record : Document} {text : String}
    (h : (store.insertOne collection record).1 = .failed text) :
    store.refusal? collection (store.ensureId record).1 = some text := by
  unfold insertOne at h
  dsimp only at h
  rw [refusal?_ensureId] at h
  split at h
  · next hrefusal => rw [hrefusal, InsertStatus.failed.inj h]
  · cases h

theorem exists_of_duplicate {record : Document} {id named : Value}
    (hid : Fields.get? store.idField record = some id)
    (h : store.refusal? collection record = some (duplicateText store.idField named)) :
    ∃ other stored, other ∈ store.records collection ∧
      Fields.get? store.idField other = some stored ∧
      stored.comparand.equal id.comparand = true := by
  rw [refusal?, hid, Option.getD_some] at h
  split at h
  · exact absurd (Option.some.inj h) (missingFieldText_ne_duplicateText _ _ _)
  · split at h
    · next hany =>
      obtain ⟨other, hother, hheld⟩ := List.any_eq_true.1 hany
      unfold hasId at hheld
      split at hheld
      · next stored hstored => exact ⟨other, stored, hother, hstored, hheld⟩
      · cases hheld
    · cases h

/-! ## Filters and duplicates -/

/-- A test of a field that holds no array accepts just the values that agree with the one that it
finds, and a record is refused as a duplicate only if a record stored before it has an identifier
that agrees with its own: as far as the store compares them, and altogether if it compares every
part of both. -/
theorem found_and_refused_by_agreement (record : Document) (field : String) (a b : Value)
    (store : Store) (collection : String) (records : List Document) (ordered : Bool) (i : Nat)
    (refused : Document) (named : Value) :
    (record.valueOf? field = some a → (∀ items, a ≠ .array items) →
      ((Predicate.compare field .eq b).evaluate store.patterns record = .ok true ↔
        a.compared.Agrees b.compared) ∧
      (a.IsCompared → b.IsCompared →
        ((Predicate.compare field .eq b).evaluate store.patterns record = .ok true ↔ a.Agrees b))) ∧
    (records[i]? = some refused →
      (store.insert collection records ordered).1[i]? =
        some (.failed (duplicateText store.idField named)) →
      let before := (store.insert collection (records.take i) ordered).2
      ∃ id other stored, Fields.get? store.idField (before.ensureId refused).1 = some id ∧
        other ∈ before.records collection ∧ Fields.get? store.idField other = some stored ∧
        stored.compared.Agrees id.compared ∧
        (stored.IsCompared → id.IsCompared → stored.Agrees id)) := by
  constructor
  · intro hfound harray
    rw [evaluate_eq_iff hfound harray]
    exact ⟨Value.equal_iff_agrees_compared a b, fun ha hb =>
      ⟨Value.agrees_of_equal ha hb, Value.equal_of_agrees⟩⟩
  · intro hrecord hstatus before
    have hkey : before.idField = store.idField :=
      idField_handle (.insert collection (records.take i) ordered) store
    have hrefused : (before.insertOne collection refused).1 =
        .failed (duplicateText before.idField named) := by
      rw [hkey]
      exact status_insertEach hrecord hstatus
    obtain ⟨id, hid⟩ := exists_get?_ensureId before refused
    obtain ⟨other, stored, hother, hstored, hequal⟩ :=
      exists_of_duplicate hid (refusal?_of_status hrefused)
    rw [hkey] at hid hstored
    exact ⟨id, other, stored, hid, hother, hstored,
      (Value.equal_iff_agrees_compared stored id).1 hequal,
      fun hs hi => Value.agrees_of_equal hs hi hequal⟩

theorem found_and_refused_across_widths :
    let record : Document := [("_id", .int32 1)]
    let store : Store := { collections := [("c", [record])], freshId := .ofNat }
    ((Predicate.compare "_id" .eq (.int64 1)).evaluate store.patterns record = .ok true ∧
      (Value.int32 1).Agrees (.int64 1)) ∧
    (store.insert "c" [[("_id", .int64 1)]] true).1[0]? =
      some (.failed (duplicateText "_id" (.int64 1))) ∧
    ∃ id other stored, Fields.get? "_id" [("_id", Value.int64 1)] = some id ∧ other ∈ [record] ∧
      Fields.get? "_id" other = some stored ∧ stored.compared.Agrees id.compared := by
  intro record store
  have haccepted : (Predicate.compare "_id" .eq (.int64 1)).evaluate store.patterns record =
      .ok true := rfl
  have hstatus : (store.insert "c" [[("_id", .int64 1)]] true).1[0]? =
      some (.failed (duplicateText "_id" (.int64 1))) := rfl
  have hint32 : (Value.int32 1).IsCompared := .scalar trivial
  have hint64 : (Value.int64 1).IsCompared := .scalar trivial
  obtain ⟨hfound, hrefused⟩ := found_and_refused_by_agreement record "_id" (.int32 1) (.int64 1)
    store "c" [[("_id", .int64 1)]] true 0 [("_id", .int64 1)] (.int64 1)
  obtain ⟨-, hagrees⟩ := hfound rfl nofun
  obtain ⟨id, other, stored, hid, hother, hstored, hsame, -⟩ := hrefused rfl hstatus
  exact ⟨⟨haccepted, (hagrees hint32 hint64).1 haccepted⟩, hstatus,
    id, other, stored, hid, hother, hstored, hsame⟩

/-- Binary values are null for the store, whatever their bytes are, and so a filter finds one by
another, and one is refused as a duplicate of the other. -/
theorem found_and_refused_by_other_binary :
    let a : Value := .binary 0 [0xaa]
    let b : Value := .binary 0 [0xbb]
    let store : Store := { collections := [("c", [[("_id", a)]])], freshId := .ofNat }
    ¬ a.Agrees b ∧ (Predicate.compare "_id" .eq b).evaluate store.patterns [("_id", a)] = .ok true ∧
    store.records "c" = [[("_id", a)]] ∧
    (store.insert "c" [[("_id", b)]] true).1 = [.failed (duplicateText "_id" b)] := by
  refine ⟨?_, rfl, rfl, rfl⟩
  intro h
  cases h with
  | integers ha => cases ha

end DocumentStore.Memory.Store
