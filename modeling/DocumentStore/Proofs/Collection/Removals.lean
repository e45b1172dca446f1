import DocumentStore.Proofs.Collection.Matches

/-!
# Deletions of the records that match

A deletion by filter reads the matches, and takes out the records that have one of their
identifiers.  Where the identifiers are distinct keys it takes out just what it lists.
-/

namespace DocumentStore.Collection

open Backend Program Memory.Store

variable {c : Collection}

/-- A run either fails and leaves all collections alone, because the filter is refused or can not
be evaluated on some record, or takes out every record that the filter accepts and no other, and
lists the records that it takes out. -/
def DeletesMatches (c : Collection) (filter : Filter.Source) (fields : FieldChoice)
    (before : Memory.Store) : Except Failure (List Document) × Memory.Store → Prop
  | (.error _, after) =>
    after.collections = before.collections ∧
      ∀ tree, deletionFilter filter = .ok tree →
        ∃ stored ∈ before.records c.name,
          ∃ cause, tree.evaluate before.patterns stored = .error cause
  | (.ok shown, after) =>
    ∃ tree, deletionFilter filter = .ok tree ∧
      (∀ stored ∈ before.records c.name, ∃ hit, tree.evaluate before.patterns stored = .ok hit) ∧
      shown = ((before.records c.name).filter (tree.accepts before.patterns)).map
        (c.shown (c.projection fields)) ∧
      after.records = Function.update before.records c.name
        ((before.records c.name).filter (!tree.accepts before.patterns ·)) ∧
      Fields.keys after.collections = Fields.keys before.collections

/-! ## What a deletion by filter leaves and answers -/

section Removing

variable {fields : FieldChoice} {filter : Predicate} {before after : Memory.Store}

theorem exists_error_of_run_removeMatching {failure : Failure}
    (hrun : (c.removeMatching (c.projection fields) filter).run handle before =
      (.error failure, after)) :
    ∃ stored ∈ before.records c.name,
      ∃ cause, filter.evaluate before.patterns stored = .error cause := by
  rcases of_run_bind_eq_error hrun with hread | ⟨found, state, -, hrest⟩
  · obtain ⟨cause, hfind⟩ := exists_of_run_perform_eq_error hread
    exact exists_error_of_find rfl hfind
  · dsimp only at hrest
    split at hrest
    · rcases of_run_bind_eq_error hrest with hdelete | ⟨count, next, -, hlast⟩
      · -- A filter by values can be evaluated on every record.
        obtain ⟨cause, hdelete⟩ := exists_of_run_perform_eq_error hdelete
        obtain ⟨stored, -, cause, hcause⟩ := exists_error_of_delete hdelete
        cases hcause
      · cases hlast
    · cases hrest

theorem of_run_removeMatching (hdot : '.' ∉ c.idField.toList) {shown : List Document}
    (hrun : (c.removeMatching (c.projection fields) filter).run handle before =
      (.ok shown, after)) :
    let ids := c.idsOf ((before.records c.name).filter (filter.accepts before.patterns))
    (∀ stored ∈ before.records c.name, ∃ hit, filter.evaluate before.patterns stored = .ok hit) ∧
    shown = ((before.records c.name).filter (filter.accepts before.patterns)).map
      (c.shown (c.projection fields)) ∧
    after.records = Function.update before.records c.name
      ((before.records c.name).filter
        (!(Predicate.oneOf c.idField ids).accepts before.patterns ·)) ∧
    Fields.keys after.collections = Fields.keys before.collections := by
  intro ids
  obtain ⟨found, state, hread, hrest⟩ := exists_of_run_bind_eq_ok hrun
  obtain ⟨hfind, rfl⟩ := of_run_perform_find hread
  have hids : c.idsOf found = ids := by
    rw [find_eq_ok hfind, idsOf_map_project hdot]
  have hshown : found.map (c.shown (c.projection fields)) =
      ((before.records c.name).filter (filter.accepts before.patterns)).map
        (c.shown (c.projection fields)) := by
    rw [find_eq_ok hfind, List.map_map]
    exact List.map_congr_left fun record _ => shown_project _ record
  dsimp only at hrest
  rw [hids, hshown] at hrest
  refine ⟨fun stored hstored => evaluate_of_find_eq_ok hfind hstored, ?_⟩
  split at hrest
  · obtain ⟨count, middle, hdelete, hlast⟩ := exists_of_run_bind_eq_ok hrest
    have hcall := handle_of_run_perform_eq_ok hdelete
    simp only [run_pure, Prod.mk.injEq, Except.ok.injEq] at hlast
    obtain ⟨rfl, rfl⟩ := hlast
    exact ⟨rfl, records_delete_of_ok hcall, keys_delete_of_ok hcall⟩
  · next hempty =>
    -- Nothing is asked of the store, which is what a filter by no identifiers amounts to.
    have hnil : ids = [] := by simpa using hempty
    have hnone (record : Document) :
        (Predicate.oneOf c.idField []).accepts before.patterns record = false :=
          accepts_oneOf hdot [] record
    simp only [run_pure, Prod.mk.injEq, Except.ok.injEq] at hrest
    obtain ⟨rfl, rfl⟩ := hrest
    simp [hnil, hnone]

theorem of_run_removeMatching_of_keyed (hdot : '.' ∉ c.idField.toList)
    (hkeyed : Keyed c.idField (before.records c.name)) {shown : List Document}
    (hrun : (c.removeMatching (c.projection fields) filter).run handle before =
      (.ok shown, after)) :
    (∀ stored ∈ before.records c.name, ∃ hit, filter.evaluate before.patterns stored = .ok hit) ∧
    shown = ((before.records c.name).filter (filter.accepts before.patterns)).map
      (c.shown (c.projection fields)) ∧
    after.records = Function.update before.records c.name
      ((before.records c.name).filter (!filter.accepts before.patterns ·)) ∧
    Fields.keys after.collections = Fields.keys before.collections := by
  obtain ⟨htotal, hshown, hafter, hkeys⟩ := of_run_removeMatching hdot hrun
  refine ⟨htotal, hshown, ?_, hkeys⟩
  rw [hafter]
  congr 1
  apply List.filter_congr
  intro record hrecord
  rw [accepts_idsOf_filter hdot hkeyed before.patterns (filter.accepts before.patterns) hrecord]

end Removing

/-! ## Requests -/

namespace Request

/-- Where the identifiers are keys that the store tells apart, a deletion by filter takes out and
lists just the matches. -/
theorem deletesMatches_of_keyed {c : Collection} (hdot : '.' ∉ c.idField.toList)
    {before : Memory.Store} (hkeyed : Keyed c.idField (before.records c.name))
    (filter : Filter.Source) (fields : FieldChoice) :
    c.DeletesMatches filter fields before
      (((deleteWhere filter fields).program c).run handle before) := by
  have hfails : ((deleteWhere filter fields).program c).FailsWithin handle SameCollections :=
    failsWithin_lift_bind sameCollections_refl fun _ => failsWithin_removeMatching c _ _
  cases hrun : ((deleteWhere filter fields).program c).run handle before with
  | mk result after =>
      cases result with
      | error failure =>
          refine ⟨hfails.of_run_eq_error hrun, fun tree htree => ?_⟩
          rw [program, Collection.deleteWhere, htree] at hrun
          exact exists_error_of_run_removeMatching hrun
      | ok shown =>
          obtain ⟨tree, htree, hremove⟩ := run_lift_bind_eq_ok hrun
          exact ⟨tree, htree, of_run_removeMatching_of_keyed hdot hkeyed hremove⟩

theorem deletesMatches_of_two_keys :
    let c : Collection := ⟨"c", "_id"⟩
    let before : Memory.Store :=
      { collections := [("c", [[("_id", .int32 1), ("k", .int32 1)],
          [("_id", .string "x"), ("k", .int32 2)]])],
        freshId := .ofNat }
    let filter : Filter.Source := .prebuilt (.test "k" .eq (.int32 1))
    let run := ((deleteWhere filter (.named ["k"])).program c).run handle before
    '.' ∉ c.idField.toList ∧ Keyed c.idField (before.records c.name) ∧
    run.1.toBool = true ∧ c.DeletesMatches filter (.named ["k"]) before run := by
  intro c before filter run
  have hdot : '.' ∉ c.idField.toList := by decide
  have hkeyed : Keyed c.idField (before.records c.name) := by
    refine ⟨fun record hrecord => ?_, ?_⟩
    · rcases List.mem_pair.1 hrecord with rfl | rfl
      · exact ⟨.int32 1, rfl, trivial⟩
      · exact ⟨.string "x", rfl, trivial⟩
    · refine List.pairwise_pair.2 fun a b ha hb => ?_
      cases ha
      cases hb
      rfl
  exact ⟨hdot, hkeyed, by decide, deletesMatches_of_keyed hdot hkeyed filter (.named ["k"])⟩

/-- The nearest double of an integer above `2 ^ 53` equals it for the store, so the record of the
one is taken out along with the record of the other, and is not listed. -/
theorem removal_of_integer_and_nearest_double :
    let c : Collection := ⟨"c", "_id"⟩
    let integer : Value := .int64 9007199254740993
    let double : Value := .double ⟨0x4340000000000000⟩
    let before : Memory.Store :=
      { collections := [("c", [[("_id", integer), ("k", .int32 1)],
          [("_id", double), ("k", .int32 2)]])],
        freshId := .ofNat }
    let filter : Predicate := .test "k" .eq (.int32 1)
    let run := ((deleteWhere (.prebuilt filter) default).program c).run handle before
    integer.IsKey ∧ double.IsKey ∧ integer.same double = false ∧
    (before.records "c").map (filter.accepts before.patterns) = [true, false] ∧
    run.1 = .ok [[("_id", integer), ("k", .int32 1)]] ∧ run.2.records "c" = [] ∧
    ¬ c.DeletesMatches (.prebuilt filter) default before run := by
  intro c integer double before filter run
  have hmarks : (before.records "c").map (filter.accepts before.patterns) = [true, false] :=
    by decide
  have hshown : run.1 = .ok [[("_id", integer), ("k", .int32 1)]] := by rfl
  have hleft : run.2.records "c" = [] := List.isEmpty_iff.1 (by decide +kernel)
  refine ⟨trivial, rfl, rfl, hmarks, hshown, hleft, fun hdeletes => ?_⟩
  cases hrun : run with
  | mk result after =>
      rw [hrun] at hshown hleft hdeletes
      cases result with
      | error failure => cases hshown
      | ok shown =>
          obtain ⟨tree, htree, -, -, hafter, -⟩ := hdeletes
          have hsame : filter = tree := Except.ok.inj htree
          rw [hafter, ← hsame] at hleft
          exact absurd hleft (by decide)

end Request

end DocumentStore.Collection
