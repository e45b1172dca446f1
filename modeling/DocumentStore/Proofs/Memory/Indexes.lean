import DocumentStore.Proofs.Memory.Scans

/-!
# Changes by index

The store changes its matches one after the other at the indexes where a scan found them.  Taken
together they leave what can be read off the marks of the scan.
-/

namespace DocumentStore.Memory

theorem set_length_append {α : Type} (before behind : List α) (x y : α) :
    (before ++ x :: behind).set before.length y = before ++ y :: behind := by
  simp

theorem eraseIdx_length_append {α : Type} (before behind : List α) (x : α) :
    (before ++ x :: behind).eraseIdx before.length = before ++ behind := by
  simp [List.eraseIdx_append_of_length_le]

namespace Marked

theorem length_hitsFrom (marked : Marked) (index : Nat) :
    (marked.hitsFrom index).length = marked.matched.length := by
  induction marked generalizing index with
  | nil => rfl
  | cons entry marked ih =>
      obtain ⟨record, hit⟩ := entry
      cases hit <;> simp [hitsFrom, matched, ih]

/-- The indexes in front of a match stay right while the matches behind it are taken out. -/
theorem foldr_eraseIdx_hitsFrom (marked : Marked) (front : List Document) :
    (marked.hitsFrom front.length).foldr (fun hit records => records.eraseIdx hit.1)
      (front ++ marked.map (·.1)) = front ++ marked.unmatched := by
  induction marked generalizing front with
  | nil => rfl
  | cons entry marked ih =>
      obtain ⟨record, hit⟩ := entry
      have hrest := ih (front ++ [record])
      rw [List.length_append, List.length_singleton, List.append_assoc] at hrest
      cases hit with
      | false => simpa [hitsFrom, unmatched] using hrest
      | true =>
          rw [hitsFrom, List.foldr_cons, List.map_cons, ← List.singleton_append, hrest,
            List.append_assoc]
          exact eraseIdx_length_append front (unmatched marked) record

theorem hitsFrom_of_splitAtMatch?_eq_none {marked : Marked} (h : marked.splitAtMatch? = none)
    (index : Nat) : marked.hitsFrom index = [] := by
  induction marked generalizing index with
  | nil => rfl
  | cons entry marked ih =>
      obtain ⟨record, hit⟩ := entry
      cases hit with
      | true => cases h
      | false => exact ih (Option.map_eq_none_iff.1 h) _

theorem hitsFrom_of_splitAtMatch? {marked : Marked} {before behind : List Document}
    {hit : Document} (h : marked.splitAtMatch? = some (before, hit, behind)) (index : Nat) :
    marked.map (·.1) = before ++ hit :: behind ∧
      ∃ hits, marked.hitsFrom index = (index + before.length, hit) :: hits := by
  induction marked generalizing before index with
  | nil => cases h
  | cons entry marked ih =>
      obtain ⟨record, accepted⟩ := entry
      cases accepted with
      | true =>
          cases h
          exact ⟨rfl, _, rfl⟩
      | false =>
          obtain ⟨⟨before', hit', behind'⟩, hrest, heq⟩ := Option.map_eq_some_iff.1 h
          cases heq
          obtain ⟨hrecords, hits, hhits⟩ := ih hrest (index + 1)
          refine ⟨congrArg (record :: ·) hrecords, hits, ?_⟩
          rw [hitsFrom, hhits, List.length_cons, Nat.add_right_comm, Nat.add_assoc]

end Marked

namespace Store

variable {store : Store} {collection : String}

theorem changeHits_cons_of_checked {change : Change} {record new : Document}
    (h : store.checked collection (changed store.idField change record) = .ok new) (index : Nat)
    (hits : List (Nat × Document)) :
    store.changeHits collection change ((index, record) :: hits) =
      (store.changeHits collection change hits).map ((index, new) :: ·) := by
  simp only [changeHits, List.mapM_cons, h]
  rfl

theorem changeMatched_cons_of_checked {change : Change} {record new : Document}
    (h : store.checked collection (changed store.idField change record) = .ok new)
    (marked : Marked) :
    store.changeMatched collection change ((record, true) :: marked) =
      (store.changeMatched collection change marked).map (new :: ·) := by
  simp only [changeMatched, List.mapM_cons, if_true, h]
  rfl

theorem changeMatched_cons_of_not_hit (store : Store) (collection : String) (change : Change)
    (record : Document) (marked : Marked) :
    store.changeMatched collection change ((record, false) :: marked) =
      (store.changeMatched collection change marked).map (record :: ·) := by
  rw [changeMatched, List.mapM_cons]
  rfl

/-- The matches are checked from the front, and written only once all of them are. -/
theorem writeHits_changeHits (store : Store) (collection : String) (change : Change)
    (marked : Marked) (front : List Document) :
    (store.changeHits collection change (marked.hitsFrom front.length)).map
        (writeHits · (front ++ marked.map (·.1))) =
      (store.changeMatched collection change marked).map (front ++ ·) := by
  induction marked generalizing front with
  | nil => rfl
  | cons entry marked ih =>
      obtain ⟨record, hit⟩ := entry
      have hrest (first : Document) := ih (front ++ [first])
      simp only [List.length_append, List.length_singleton, List.append_assoc,
        List.singleton_append] at hrest
      cases hit with
      | false =>
          rw [changeMatched_cons_of_not_hit, except_map_map]
          exact hrest record
      | true =>
          rw [Marked.hitsFrom]
          cases hchecked : store.checked collection (changed store.idField change record) with
          | error failure =>
              simp only [changeHits, changeMatched, List.mapM_cons, if_true, hchecked]
              rfl
          | ok new =>
              rw [changeHits_cons_of_checked hchecked, changeMatched_cons_of_checked hchecked,
                except_map_map, except_map_map]
              refine Eq.trans ?_ (hrest new)
              rw [← set_length_append front _ record new]
              rfl

theorem map_fst_of_scan {filter : Predicate} {marked : Marked}
    (h : store.scan collection filter = .ok marked) :
    marked.map (·.1) = store.records collection := by
  rw [eq_mark_of_scan h]
  simp [Marked.mark, Function.comp_def]

theorem matching_of_split {filter : Predicate} {marked : Marked}
    (hscan : store.scan collection filter = .ok marked) {before behind : List Document}
    {hit : Document} (hsplit : marked.splitAtMatch? = some (before, hit, behind)) :
    store.records collection = before ++ hit :: behind ∧
      ∃ hits, store.matching collection filter = .ok ((before.length, hit) :: hits) := by
  obtain ⟨hrecords, hits, hhits⟩ := Marked.hitsFrom_of_splitAtMatch? hsplit 0
  rw [map_fst_of_scan hscan] at hrecords
  refine ⟨hrecords, hits, ?_⟩
  rw [matching, hscan, Except.map, Marked.hits, hhits, Nat.zero_add]

theorem matching_of_no_split {filter : Predicate} {marked : Marked}
    (hscan : store.scan collection filter = .ok marked) (hsplit : marked.splitAtMatch? = none) :
    store.matching collection filter = .ok [] := by
  rw [matching, hscan, Except.map, Marked.hits, Marked.hitsFrom_of_splitAtMatch?_eq_none hsplit]

theorem matching_of_error {filter : Predicate} {failure : Failure}
    (hscan : store.scan collection filter = .error failure) :
    store.matching collection filter = .error failure := by
  rw [matching, hscan, Except.map]

section

variable (store : Store) (collection : String) (filter : Predicate)

theorem count_eq_scan :
    store.count collection filter =
      (store.scan collection filter).map fun marked => marked.matched.length := by
  rw [count, matching]
  cases store.scan collection filter with
  | error failure => rfl
  | ok marked => exact congrArg Except.ok (marked.length_hitsFrom 0)

theorem replace_eq_scan (record : Document) (upsert : Bool) :
    store.replace collection filter record upsert =
      let store := store.ensureCollection collection
      match store.scan collection filter with
      | .error error => (.error error, store)
      | .ok marked =>
        match marked.splitAtMatch? with
        | some (before, previous, behind) =>
          match store.checked collection (replaced store.idField previous record) with
          | .error error => (.error error, store)
          | .ok body => (.ok 1, store.setRecords collection (before ++ body :: behind))
        | none =>
          if upsert then
            let (record, store) := store.ensureId record
            match store.checked collection record with
            | .error error => (.error error, store)
            | .ok record =>
              (.ok 0, store.setRecords collection (store.records collection ++ [record]))
          else (.ok 0, store) := by
  simp only [replace]
  generalize store.ensureCollection collection = store
  cases hscan : store.scan collection filter with
  | error failure => rw [matching_of_error hscan]
  | ok marked =>
      cases hsplit : marked.splitAtMatch? with
      | none =>
          cases (store.ensureId record).2.checked collection (store.ensureId record).1 <;>
            simp only [matching_of_no_split hscan hsplit, hsplit]
      | some parts =>
          obtain ⟨before, previous, behind⟩ := parts
          obtain ⟨hrecords, hits, hmatching⟩ := matching_of_split hscan hsplit
          cases hchecked : store.checked collection (replaced store.idField previous record) <;>
            simp only [hmatching, hsplit, hrecords, set_length_append, hchecked]

theorem findAndMerge_eq_scan (patch : Document) (projection : Projection) :
    store.findAndMerge collection filter patch projection =
      match store.scan collection filter with
      | .error error => (.error error, store)
      | .ok marked =>
        match marked.splitAtMatch? with
        | none => (.ok none, store)
        | some (before, previous, behind) =>
          match store.checked collection (previous.overlay patch) with
          | .error error => (.error error, store)
          | .ok record =>
            (.ok (some (projection.project record)),
              store.setRecords collection (before ++ record :: behind)) := by
  rw [findAndMerge]
  cases hscan : store.scan collection filter with
  | error failure => rw [matching_of_error hscan]
  | ok marked =>
      cases hsplit : marked.splitAtMatch? with
      | none => simp only [matching_of_no_split hscan hsplit, hsplit]
      | some parts =>
          obtain ⟨before, previous, behind⟩ := parts
          obtain ⟨hrecords, hits, hmatching⟩ := matching_of_split hscan hsplit
          cases hchecked : store.checked collection (previous.overlay patch) <;>
            simp only [hmatching, hsplit, hrecords, set_length_append, hchecked]

theorem findAndDelete_eq_scan (projection : Projection) :
    store.findAndDelete collection filter projection =
      match store.scan collection filter with
      | .error error => (.error error, store)
      | .ok marked =>
        match marked.splitAtMatch? with
        | none => (.ok none, store)
        | some (before, record, behind) =>
          (.ok (some (projection.project record)),
            store.setRecords collection (before ++ behind)) := by
  rw [findAndDelete]
  cases hscan : store.scan collection filter with
  | error failure => rw [matching_of_error hscan]
  | ok marked =>
      cases hsplit : marked.splitAtMatch? with
      | none => simp only [matching_of_no_split hscan hsplit, hsplit]
      | some parts =>
          obtain ⟨before, previous, behind⟩ := parts
          obtain ⟨hrecords, hits, hmatching⟩ := matching_of_split hscan hsplit
          simp only [hmatching, hsplit, hrecords, eraseIdx_length_append]

theorem update_eq_scan (change : Change) :
    store.update collection filter change =
      if Fields.contains collection store.collections then
        match store.scan collection filter with
        | .error error => (.error error, store)
        | .ok marked =>
          match store.changeMatched collection change marked with
          | .error error => (.error error, store)
          | .ok records => (.ok marked.matched.length, store.setRecords collection records)
      else (.ok 0, store) := by
  rw [update]
  cases hscan : store.scan collection filter with
  | error failure => rw [matching_of_error hscan]
  | ok marked =>
      have hchanged : (store.changeHits collection change marked.hits).map
          (writeHits · (store.records collection)) =
            store.changeMatched collection change marked := by
        rw [← map_fst_of_scan hscan]
        refine (writeHits_changeHits store collection change marked []).trans ?_
        cases store.changeMatched collection change marked <;> rfl
      have hcount : marked.hits.length = marked.matched.length := marked.length_hitsFrom 0
      simp only [matching, hscan, Except.map, hcount, ← hchanged]
      cases store.changeHits collection change marked.hits <;> rfl

theorem delete_eq_scan :
    store.delete collection filter =
      if Fields.contains collection store.collections then
        match store.scan collection filter with
        | .error error => (.error error, store)
        | .ok marked =>
          (.ok marked.matched.length, store.setRecords collection marked.unmatched)
      else (.ok 0, store) := by
  rw [delete]
  cases hscan : store.scan collection filter with
  | error failure => rw [matching_of_error hscan]
  | ok marked =>
      have hremoved : removeHits marked.hits (store.records collection) = marked.unmatched := by
        rw [removeHits, List.foldl_reverse, ← map_fst_of_scan hscan]
        exact marked.foldr_eraseIdx_hitsFrom []
      have hcount : marked.hits.length = marked.matched.length := marked.length_hitsFrom 0
      simp only [matching, hscan, Except.map, hremoved, hcount]

end

end Store

end DocumentStore.Memory
