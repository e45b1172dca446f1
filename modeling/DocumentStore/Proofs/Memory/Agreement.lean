import DocumentStore.Proofs.Memory.FirstMatch

/-!
# Calls that agree on their matches

Finding reads its matches off a scan, while the other calls go by the indexes of theirs.  Calls
with one filter on one collection nevertheless speak of the same records, and a filter that fails
on one of them stops every call before it changes anything.
-/

namespace DocumentStore.Memory.Store

variable {store : Store} {collection : String} {filter : Predicate}

/-! ## All matches -/

section

variable {failure : Failure}

theorem find_of_scan_eq_error (h : store.scan collection filter = .error failure)
    (selection : Selection) : store.find collection filter selection = .error failure := by
  rw [find, h]

theorem count_of_scan_eq_error (h : store.scan collection filter = .error failure) :
    store.count collection filter = .error failure := by
  rw [count_eq_scan, h]
  rfl

theorem contains_of_scan_eq_error (h : store.scan collection filter = .error failure) :
    Fields.contains collection store.collections = true := by
  obtain ⟨record, hrecord, -⟩ := exists_of_scan_eq_error h
  by_contra hmissing
  rw [records_of_missing store collection (Bool.not_eq_true _ ▸ hmissing)] at hrecord
  cases hrecord

theorem delete_of_scan_eq_error (h : store.scan collection filter = .error failure) :
    store.delete collection filter = (.error failure, store) := by
  rw [delete_eq_scan, if_pos (contains_of_scan_eq_error h), h]

theorem update_of_scan_eq_error (h : store.scan collection filter = .error failure)
    (change : Change) : store.update collection filter change = (.error failure, store) := by
  rw [update_eq_scan, if_pos (contains_of_scan_eq_error h), h]

end

theorem select_nil (store : Store) (selection : Selection) :
    store.select selection [] = .ok [] := by
  have hrun : store.sorting.run selection.sort [] = some [] :=
    store.sorting.settled (.inl (Nat.zero_le _))
  rw [select, hrun]
  cases hlimit : selection.limit <;> simp [cut, hlimit]

theorem find_of_delete_eq_ok {count : Nat} {after : Store}
    (h : store.delete collection filter = (.ok count, after))
    (htotal : ∀ record ∈ store.records collection,
      ∃ hit, filter.evaluate store.patterns record = .ok hit)
    (selection : Selection) : after.find collection filter selection = .ok [] := by
  have hpatterns : after.patterns = store.patterns := by
    have hsettings := settings_delete store collection filter
    rw [h] at hsettings
    exact patterns_of_settings store hsettings
  have hrecords : after.records collection =
      (store.records collection).filter (!filter.accepts store.patterns ·) := by
    rw [records_delete_of_ok h, Function.update_self]
  have hkept : ∀ record ∈ after.records collection,
      ∃ hit, filter.evaluate after.patterns record = .ok hit := by
    intro record hrecord
    rw [hrecords] at hrecord
    rw [hpatterns]
    exact htotal record (List.mem_of_mem_filter hrecord)
  have hnone : (after.records collection).filter (filter.accepts after.patterns) = [] := by
    rw [hrecords, hpatterns, List.filter_filter]
    simp
  rw [find_of_total hkept, hnone, select_nil]

/-- Where a filter has an answer for every record, finding, counting, deleting and changing all
matches speak of the same records, and only these go or change.  Where it fails on one, all four
fail alike and nothing changes. -/
theorem scans_agree (store : Store) (collection : String) (filter : Predicate) :
    let records := store.records collection
    let found := records.filter (filter.accepts store.patterns)
    let deletion := store.delete collection filter
    ((∀ record ∈ records, ∃ hit, filter.evaluate store.patterns record = .ok hit) →
      store.find collection filter {} = .ok found ∧
      store.count collection filter = .ok found.length ∧
      deletion.1 = .ok found.length ∧
      deletion.2.records =
        Function.update store.records collection
          (records.filter (!filter.accepts store.patterns ·)) ∧
      (∀ selection, deletion.2.find collection filter selection = .ok []) ∧
      ∀ change count after, store.update collection filter change = (.ok count, after) →
        count = found.length ∧
        after.records = Function.update store.records collection
          (records.map fun record =>
            if filter.accepts store.patterns record then changed store.idField change record
            else record)) ∧
    ∀ record ∈ records, ∀ cause, filter.evaluate store.patterns record = .error cause →
      ∃ failure, (∃ other ∈ records, filter.evaluate store.patterns other = .error failure) ∧
        (∀ selection, store.find collection filter selection = .error failure) ∧
        store.count collection filter = .error failure ∧
        deletion = (.error failure, store) ∧
        ∀ change, store.update collection filter change = (.error failure, store) := by
  intro records found deletion
  constructor
  · intro htotal
    have hdeletion : store.delete collection filter = (.ok found.length, deletion.2) :=
      Prod.ext (delete_of_total htotal) rfl
    have hfound : store.find collection filter {} = .ok found := by
      rw [find_unsorted_of_total htotal rfl, cut_projection]
      exact congrArg Except.ok (List.map_id _)
    exact ⟨hfound, count_of_total htotal, congrArg Prod.fst hdeletion,
      records_delete_of_ok hdeletion, find_of_delete_eq_ok hdeletion htotal,
      fun _ _ _ hupdate => ⟨count_update_of_ok hupdate, records_update_of_ok hupdate⟩⟩
  · intro record hrecord cause hcause
    cases hscan : store.scan collection filter with
    | ok marked =>
        obtain ⟨hit, hhit⟩ := evaluate_of_scan_eq_ok hscan hrecord
        rw [hcause] at hhit
        cases hhit
    | error failure =>
        exact ⟨failure, exists_of_scan_eq_error hscan, find_of_scan_eq_error hscan,
          count_of_scan_eq_error hscan, delete_of_scan_eq_error hscan,
          update_of_scan_eq_error hscan⟩

theorem scans_agree_on_three_records :
    let first : Document := [("_id", .int32 1), ("k", .int32 1)]
    let second : Document := [("_id", .int32 2), ("k", .int32 2)]
    let third : Document := [("_id", .int32 3), ("k", .int32 3)]
    let store : Store := { collections := [("c", [second, first, third])], freshId := .ofNat }
    let filter : Predicate := .test "k" .gte (.int32 2)
    let broken : Predicate := .or [filter, .unrecognized "k"]
    let update := store.update "c" filter (.merge [("k", .int32 0)])
    (∀ record ∈ store.records "c", ∃ hit, filter.evaluate store.patterns record = .ok hit) ∧
    store.find "c" filter {} = .ok [second, third] ∧ store.count "c" filter = .ok 2 ∧
    (store.delete "c" filter).2.records "c" = [first] ∧
    update.1 = .ok 2 ∧
    update.2.records "c" =
      [[("_id", .int32 2), ("k", .int32 0)], first, [("_id", .int32 3), ("k", .int32 0)]] ∧
    broken.evaluate store.patterns first = .error (Predicate.unrecognizedError "k") ∧
    ∃ failure, store.delete "c" broken = (.error failure, store) := by
  intro first second third store filter broken update
  have htotal : ∀ record ∈ store.records "c",
      ∃ hit, filter.evaluate store.patterns record = .ok hit :=
    fun record _ => ⟨_, rfl⟩
  obtain ⟨hfind, hcount, -, hdelete, -, hupdate⟩ := (scans_agree store "c" filter).1 htotal
  have hcalled : update = (.ok 2, update.2) := rfl
  have hbroken : broken.evaluate store.patterns first =
      .error (Predicate.unrecognizedError "k") := rfl
  have hmem : first ∈ store.records "c" := List.mem_cons_of_mem _ List.mem_cons_self
  obtain ⟨failure, -, -, -, hdeleted, -⟩ := (scans_agree store "c" broken).2 first hmem _ hbroken
  exact ⟨htotal, hfind, hcount, (congrFun hdelete "c").trans rfl, rfl,
    (congrFun (hupdate _ _ _ hcalled).2 "c").trans rfl, hbroken, failure, hdeleted⟩

/-! ## The first match -/

/-- What comes of writing a record between those before the first match and those behind it: the
answer and the collection with the record, or the required field that it misses and nothing
written. -/
def Puts {α : Type} (store : Store) (collection : String) (before behind : List Document)
    (record : Document) (answer : α) (outcome : Except Failure α × Store) : Prop :=
  match store.missingField? collection record with
  | some field =>
    outcome.1 = .error (.store (missingFieldText field)) ∧ outcome.2.records = store.records
  | none =>
    outcome.1 = .ok answer ∧
      outcome.2.records = Function.update store.records collection (before ++ record :: behind)

section

variable (htotal : ∀ record ∈ store.records collection,
  ∃ hit, filter.evaluate store.patterns record = .ok hit)

include htotal

theorem answers_of_none
    (hnone : ∀ record ∈ store.records collection, filter.accepts store.patterns record = false)
    (body patch : Document) (projection : Projection) :
    store.find collection filter { limit := some 1 } = .ok [] ∧
    store.replace collection filter body false = (.ok 0, store.ensureCollection collection) ∧
    store.findAndMerge collection filter patch projection = (.ok none, store) ∧
    store.findAndDelete collection filter projection = (.ok none, store) := by
  have hfind : (store.records collection).find? (filter.accepts store.patterns) = none :=
    List.find?_eq_none.2 fun record hrecord => by simp [hnone record hrecord]
  refine ⟨?_, ?_, ?_, ?_⟩
  · rw [find_unsorted_of_total htotal rfl, List.filter_eq_nil_iff.2 (List.find?_eq_none.1 hfind)]
    rfl
  · rw [replace_eq htotal, hfind, withFirstChanged_of_none hfind]
  · simp only [findAndMerge_eq_scan, scan_eq_mark htotal,
      Marked.splitAtMatch?_mark_of_none hnone]
  · rw [findAndDelete_eq htotal, hfind]
    rfl

variable {before behind : List Document} {hit : Document}
  (hrecords : store.records collection = before ++ hit :: behind)
  (hbefore : ∀ record ∈ before, filter.accepts store.patterns record = false)
  (hhit : filter.accepts store.patterns hit = true)

include hrecords hbefore hhit

theorem find_one_of_append : store.find collection filter { limit := some 1 } = .ok [hit] := by
  rw [find_unsorted_of_total htotal rfl, hrecords, List.filter_append, List.filter_cons_of_pos hhit,
    List.filter_eq_nil_iff.2 fun record hrecord => by simp [hbefore record hrecord]]
  exact congrArg Except.ok (List.map_id _)

theorem puts_replace (body : Document) :
    store.Puts collection before behind (replaced store.idField hit body) 1
      (store.replace collection filter body false) := by
  rw [replace_of_append htotal hrecords hbefore hhit, Puts, checked]
  cases store.missingField? collection (replaced store.idField hit body) with
  | some field => exact ⟨rfl, records_ensureCollection_eq store collection⟩
  | none => exact ⟨rfl, records_setRecords store collection _⟩

theorem puts_findAndMerge (patch : Document) (projection : Projection) :
    store.Puts collection before behind (hit.overlay patch)
      (some (projection.project (hit.overlay patch)))
      (store.findAndMerge collection filter patch projection) := by
  rw [findAndMerge_eq_scan, scan_eq_mark htotal, hrecords]
  simp only [Marked.splitAtMatch?_mark_append hbefore hhit, Puts, checked]
  cases store.missingField? collection (hit.overlay patch) with
  | some field => exact ⟨rfl, rfl⟩
  | none => exact ⟨rfl, records_setRecords store collection _⟩

theorem findAndDelete_of_append (projection : Projection) :
    store.findAndDelete collection filter projection =
      (.ok (some (projection.project hit)), store.setRecords collection (before ++ behind)) := by
  rw [findAndDelete_eq htotal, hrecords, find?_append hbefore hhit, eraseP_append hbefore hhit]
  rfl

end

/-- A replacement, a merge and a deletion of one record each take the record that a reading of one
finds.  The others keep their contents and their order, and nothing changes without a match or
for a record that misses a required field. -/
theorem first_match_agrees {store : Store} {collection : String} {filter : Predicate}
    (htotal : ∀ record ∈ store.records collection,
      ∃ hit, filter.evaluate store.patterns record = .ok hit)
    (body patch : Document) (projection : Projection) :
    let records := store.records collection
    let found := store.find collection filter { limit := some 1 }
    let replacement := store.replace collection filter body false
    let merge := store.findAndMerge collection filter patch projection
    let deletion := store.findAndDelete collection filter projection
    ((∀ record ∈ records, filter.accepts store.patterns record = false) ∧ found = .ok [] ∧
      replacement.1 = .ok 0 ∧ replacement.2.records = store.records ∧
      merge = (.ok none, store) ∧ deletion = (.ok none, store)) ∨
    ∃ before hit behind, records = before ++ hit :: behind ∧
      (∀ record ∈ before, filter.accepts store.patterns record = false) ∧
      filter.accepts store.patterns hit = true ∧
      found = .ok [hit] ∧
      store.Puts collection before behind (replaced store.idField hit body) 1 replacement ∧
      store.Puts collection before behind (hit.overlay patch)
        (some (projection.project (hit.overlay patch))) merge ∧
      deletion.1 = .ok (some (projection.project hit)) ∧
      deletion.2.records = Function.update store.records collection (before ++ behind) := by
  intro records found replacement merge deletion
  rcases Marked.splitAtMatch?_mark_eq store.patterns filter records with
    ⟨hsplit, -⟩ | ⟨before, hit, behind, -, hrecords, hhit, hbefore, -⟩
  · have hnone := Marked.splitAtMatch?_mark_eq_none hsplit
    obtain ⟨hfound, hreplacement, hmerge, hdeletion⟩ :=
      answers_of_none htotal hnone body patch projection
    refine .inl ⟨hnone, hfound, congrArg Prod.fst hreplacement, ?_, hmerge, hdeletion⟩
    rw [show replacement = _ from hreplacement, records_ensureCollection_eq]
  · have hdeletion := findAndDelete_of_append htotal hrecords hbefore hhit projection
    refine .inr ⟨before, hit, behind, hrecords, hbefore, hhit,
      find_one_of_append htotal hrecords hbefore hhit,
      puts_replace htotal hrecords hbefore hhit body,
      puts_findAndMerge htotal hrecords hbefore hhit patch projection,
      congrArg Prod.fst hdeletion, ?_⟩
    rw [show deletion = _ from hdeletion, records_setRecords]

theorem first_match_agrees_on_three_records :
    let first : Document := [("_id", .int32 1), ("k", .int32 1)]
    let second : Document := [("_id", .int32 2), ("k", .int32 2)]
    let third : Document := [("_id", .int32 3), ("k", .int32 3)]
    let merged : Document := [("_id", .int32 2), ("k", .int32 0)]
    let store : Store :=
      { required := [("c", ["k"])]
        collections := [("c", [first, second, third])]
        freshId := .ofNat }
    let filter : Predicate := .test "k" .gte (.int32 2)
    let replacement := store.replace "c" filter [("n", .null)] false
    let merge := store.findAndMerge "c" filter [("k", .int32 0)] .all
    let deletion := store.findAndDelete "c" filter .all
    (∀ record ∈ store.records "c", ∃ hit, filter.evaluate store.patterns record = .ok hit) ∧
    store.find "c" filter { limit := some 1 } = .ok [second] ∧
    replacement.1 = .error (.store (missingFieldText "k")) ∧ replacement.2.records = store.records ∧
    merge.1 = .ok (some merged) ∧ deletion.1 = .ok (some second) ∧
    ∃ before behind, store.records "c" = before ++ second :: behind ∧
      merge.2.records "c" = before ++ merged :: behind ∧
      deletion.2.records "c" = before ++ behind := by
  intro first second third merged store filter replacement merge deletion
  have htotal : ∀ record ∈ store.records "c",
      ∃ hit, filter.evaluate store.patterns record = .ok hit :=
    fun record _ => ⟨_, rfl⟩
  have hsecond : store.find "c" filter { limit := some 1 } = .ok [second] := rfl
  rcases first_match_agrees htotal [("n", .null)] [("k", .int32 0)] .all with
    ⟨-, hfound, -⟩ | ⟨before, hit, behind, hrecords, -, -, hfound, hreplaced, hmerged, hdeleted⟩
  · rw [hsecond] at hfound
    cases hfound
  · rw [hsecond] at hfound
    cases hfound
    obtain ⟨hanswer, hsame⟩ := hreplaced
    exact ⟨htotal, hsecond, hanswer, hsame, hmerged.1, hdeleted.1, before, behind, hrecords,
      (congrFun hmerged.2 "c").trans rfl, (congrFun hdeleted.2 "c").trans rfl⟩

end DocumentStore.Memory.Store
