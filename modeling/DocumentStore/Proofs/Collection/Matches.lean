import DocumentStore.Proofs.Collection.Failures
import DocumentStore.Proofs.Collection.Keys
import DocumentStore.Proofs.Collection.Revisions
import DocumentStore.Proofs.Memory.Answers
import DocumentStore.Proofs.Projection
import DocumentStore.Proofs.Value.Keys

/-!
# Changes of the records that match

A change by filter reads the identifiers of the matches, and changes and reads again the records
that have one of them.  Where the identifiers are distinct keys these are the matches, whether
or not the filter still accepts them.
-/

namespace DocumentStore

/-- Every record has a key in the field, and the store compares the keys of any two records as
different. -/
structure Keyed (field : String) (records : List Document) : Prop where
  keys : ∀ record ∈ records, ∃ id, Fields.get? field record = some id ∧ id.IsKey
  distinct : records.Pairwise fun first second => ∀ a b, Fields.get? field first = some a →
    Fields.get? field second = some b → a.comparand.equal b.comparand = false

def Document.only (field : String) (record : Document) : Document :=
  (Fields.get? field record).toList.map (field, ·)

theorem Keyed.isKey {field : String} {records : List Document} (h : Keyed field records)
    {record : Document} (hrecord : record ∈ records) {id : Value}
    (hid : Fields.get? field record = some id) : id.IsKey := by
  obtain ⟨key, hget, hkey⟩ := h.keys record hrecord
  rw [hid] at hget
  rw [Option.some.inj hget]
  exact hkey

theorem Keyed.eq_of_equal {field : String} {records : List Document} (h : Keyed field records)
    {first second : Document} (hfirst : first ∈ records) (hsecond : second ∈ records) {a b : Value}
    (ha : Fields.get? field first = some a) (hb : Fields.get? field second = some b)
    (hequal : a.comparand.equal b.comparand = true) : first = second := by
  have hcomm := Comparand.equal_comm (Value.wellKeyed_of_isKey (h.isKey hfirst ha))
    (Value.wellKeyed_of_isKey (h.isKey hsecond hb))
  have hdistinct := List.pairwise_iff_getElem.1 h.distinct
  obtain ⟨i, hi, rfl⟩ := List.mem_iff_getElem.1 hfirst
  obtain ⟨j, hj, rfl⟩ := List.mem_iff_getElem.1 hsecond
  -- The keys are compared in storage order, so the places decide which comparison is known.
  rcases Nat.lt_trichotomy i j with hij | rfl | hji
  · rw [hdistinct i j hi hj hij a b ha hb] at hequal
    cases hequal
  · rfl
  · rw [hcomm, hdistinct j i hj hi hji b a hb ha] at hequal
    cases hequal

namespace Collection

open Backend Program Memory.Store

variable {c : Collection} {reader : PatternReader}

theorem accepts_idsOf_filter (hdot : '.' ∉ c.idField.toList) {records : List Document}
    (h : Keyed c.idField records) (reader : PatternReader) (accepts : Document → Bool)
    {record : Document} (hrecord : record ∈ records) :
    (Predicate.oneOf c.idField (c.idsOf (records.filter accepts))).accepts reader record =
      accepts record := by
  obtain ⟨id, hid, hkey⟩ := h.keys record hrecord
  rw [accepts_oneOf hdot, hid, Bool.eq_iff_iff, List.any_eq_true]
  constructor
  · rintro ⟨wanted, hwanted, hfound⟩
    obtain ⟨hit, hhit, hget⟩ := List.mem_filterMap.1 hwanted
    obtain ⟨hmem, haccepts⟩ := List.mem_filter.1 hhit
    rw [Value.foundEqual_of_isScalar (Value.isScalar_of_isKey hkey)] at hfound
    rw [h.eq_of_equal hrecord hmem hid hget hfound]
    exact haccepts
  · intro haccepts
    refine ⟨id, List.mem_filterMap.2 ⟨record, List.mem_filter.2 ⟨hrecord, haccepts⟩, hid⟩, ?_⟩
    rw [Value.foundEqual_of_isScalar (Value.isScalar_of_isKey hkey)]
    exact Value.equal_self_of_isKey hkey

theorem accepts_oneOf_changed (hdot : '.' ∉ c.idField.toList) {change : Change}
    (hspares : change.Spares c.idField) (values : List Value) (record : Document) :
    (Predicate.oneOf c.idField values).accepts reader (changed c.idField change record) =
      (Predicate.oneOf c.idField values).accepts reader record := by
  rw [accepts_oneOf hdot, accepts_oneOf hdot, get?_changed hspares]

theorem idsOf_map_project (hdot : '.' ∉ c.idField.toList) (fields : FieldChoice)
    (records : List Document) :
    c.idsOf (records.map (c.projection fields).project) = c.idsOf records := by
  rw [idsOf, idsOf, List.filterMap_map]
  exact congrArg (List.filterMap · records) (funext fun record => get?_project hdot fields record)

/-! ## What a change by filter leaves and answers -/

theorem of_run_modifyMatching (hdot : '.' ∉ c.idField.toList) {operation : Operation}
    {change : Change} {projection : Projection} {filter : Predicate} {before after : Memory.Store}
    {shown : List Document}
    (hrun : (c.modifyMatching operation change projection filter).run handle before =
      (.ok shown, after)) :
    let ids := c.idsOf ((before.records c.name).filter (filter.accepts before.patterns))
    (∀ record ∈ before.records c.name, ∃ hit, filter.evaluate before.patterns record = .ok hit) ∧
    after.records = Function.update before.records c.name
      ((before.records c.name).map fun record =>
        if (Predicate.oneOf c.idField ids).accepts before.patterns record then
          changed before.idField change record
        else record) ∧
    shown = if projection.keepsOnly c.idField then
        ids.map fun id => [(c.idField, Identifier.shownValue id)]
      else ((after.records c.name).filter
        ((Predicate.oneOf c.idField ids).accepts after.patterns)).map (c.shown projection) := by
  intro ids
  obtain ⟨found, state, hread, hrest⟩ := exists_of_run_bind_eq_ok hrun
  obtain ⟨hfind, rfl⟩ := of_run_perform_find hread
  have hids : c.idsOf found = ids := by
    rw [find_eq_ok hfind, idsOf_map_project hdot]
  dsimp only at hrest
  rw [hids] at hrest
  refine ⟨fun record hrecord => evaluate_of_find_eq_ok hfind hrecord, ?_⟩
  split at hrest
  · next hempty =>
    -- Nothing is asked of the store, which is what a filter by no identifiers amounts to.
    have hnil : ids = [] := List.isEmpty_iff.1 hempty
    have hnone (reader : PatternReader) (record : Document) :
        (Predicate.oneOf c.idField []).accepts reader record = false := accepts_oneOf hdot [] record
    simp only [run_pure, Prod.mk.injEq, Except.ok.injEq] at hrest
    obtain ⟨rfl, rfl⟩ := hrest
    simp [hnil, hnone]
  · obtain ⟨count, middle, hupdate, hanswer⟩ := exists_of_run_bind_eq_ok hrest
    have hrecords := records_update_of_ok (handle_of_run_perform_eq_ok hupdate)
    split at hanswer
    · next honly =>
      simp only [run_pure, Prod.mk.injEq, Except.ok.injEq] at hanswer
      obtain ⟨rfl, rfl⟩ := hanswer
      exact ⟨hrecords, (if_pos honly).symm⟩
    · next honly =>
      obtain ⟨again, last, hreread, hlast⟩ := exists_of_run_bind_eq_ok hanswer
      obtain ⟨hfind, rfl⟩ := of_run_perform_find hreread
      simp only [run_pure, Prod.mk.injEq, Except.ok.injEq] at hlast
      obtain ⟨rfl, rfl⟩ := hlast
      refine ⟨hrecords, ?_⟩
      rw [if_neg honly, find_eq_ok hfind, List.map_map]
      exact List.map_congr_left fun record _ => shown_project projection record

/-- The answer that lists the records: each as it is shown, or cut down to its identifier where
nothing else is wanted. -/
def listed (c : Collection) (projection : Projection) (records : List Document) : List Document :=
  if projection.keepsOnly c.idField then
    records.map fun record => (c.shown .all record).only c.idField
  else records.map (c.shown projection)

/-- A run either leaves all collections alone and fails, or changes every record that the filter
accepts in its place, no other record, and lists the changed records. -/
def ChangesMatches (c : Collection) (change : Document → Change) (record : Document)
    (filter : Filter.Source) (fields : FieldChoice) (before : Memory.Store) :
    Except Failure (List Document) × Memory.Store → Prop
  | (.error _, after) => after.collections = before.collections
  | (.ok shown, after) =>
    ∃ payload tree, c.payload record = .ok payload ∧ filterTree filter = .ok tree ∧
      (∀ stored ∈ before.records c.name, ∃ hit, tree.evaluate before.patterns stored = .ok hit) ∧
      after.records = Function.update before.records c.name
        ((before.records c.name).map fun stored =>
          if tree.accepts before.patterns stored then changed c.idField (change payload) stored
          else stored) ∧
      shown = c.listed (c.projection fields)
        (((before.records c.name).filter (tree.accepts before.patterns)).map
          (changed c.idField (change payload)))

theorem only_shown {record : Document} {id : Value}
    (hid : Fields.get? c.idField record = some id) :
    (c.shown .all record).only c.idField = [(c.idField, Identifier.shownValue id)] := by
  have hshown : c.shown .all record =
      Fields.insert c.idField (Identifier.shownValue id) record := by
    rw [shown, Projection.project, Identifier.shownRecord, hid]
  rw [hshown, Document.only, Fields.get?_insert_self]
  rfl

theorem map_idsOf_eq {records : List Document} {change : Change}
    (hkeys : ∀ record ∈ records, ∃ id, Fields.get? c.idField record = some id)
    (hspares : change.Spares c.idField) :
    (c.idsOf records).map (fun id => [(c.idField, Identifier.shownValue id)]) =
      (records.map (changed c.idField change)).map
        fun record => (c.shown .all record).only c.idField := by
  rw [idsOf, List.map_filterMap, List.map_map, ← List.filterMap_eq_map]
  apply List.filterMap_congr
  intro record hrecord
  obtain ⟨id, hid⟩ := hkeys record hrecord
  have hchanged : Fields.get? c.idField (changed c.idField change record) = some id :=
    (get?_changed hspares record).trans hid
  rw [hid, Option.map_some, Function.comp_apply, Function.comp_apply, only_shown hchanged]

theorem filter_map_changed {records : List Document} {accepts targets : Document → Bool}
    {change : Document → Document} (hbefore : ∀ record ∈ records, targets record = accepts record)
    (hchange : ∀ record, targets (change record) = targets record) :
    (records.map fun record => if accepts record then change record else record).filter targets =
      (records.filter accepts).map change := by
  have hafter : ∀ record ∈ records,
      targets (if accepts record then change record else record) = accepts record := by
    intro record hrecord
    split
    · rw [hchange, hbefore record hrecord]
    · exact hbefore record hrecord
  calc (records.map fun record => if accepts record then change record else record).filter targets
      = (records.filter accepts).map
          fun record => if accepts record then change record else record := by
        rw [List.filter_map]
        exact congrArg _ (List.filter_congr hafter)
    _ = (records.filter accepts).map change := by
        apply List.map_congr_left
        intro record hrecord
        rw [if_pos (List.mem_filter.1 hrecord).2]

theorem of_run_modifyMatching_of_keyed (hdot : '.' ∉ c.idField.toList) {operation : Operation}
    {change : Change} {projection : Projection} {filter : Predicate} {before after : Memory.Store}
    {shown : List Document} (hkeyed : Keyed c.idField (before.records c.name))
    (hfield : before.idField = c.idField) (hspares : change.Spares c.idField)
    (hrun : (c.modifyMatching operation change projection filter).run handle before =
      (.ok shown, after)) :
    after.records = Function.update before.records c.name
      ((before.records c.name).map fun record =>
        if filter.accepts before.patterns record then changed c.idField change record else record) ∧
    shown = c.listed projection
      (((before.records c.name).filter (filter.accepts before.patterns)).map
        (changed c.idField change)) := by
  obtain ⟨-, hafter, hshown⟩ := of_run_modifyMatching hdot hrun
  have htargets (reader : PatternReader) (record : Document)
      (hrecord : record ∈ before.records c.name) :=
    accepts_idsOf_filter hdot hkeyed reader (filter.accepts before.patterns) hrecord
  have hrecords : after.records = Function.update before.records c.name
      ((before.records c.name).map fun record =>
        if filter.accepts before.patterns record then
          changed c.idField change record
        else record) := by
    rw [hafter, hfield]
    congr 1
    apply List.map_congr_left
    intro record hrecord
    rw [htargets _ record hrecord]
  refine ⟨hrecords, ?_⟩
  have hmatches : (after.records c.name).filter ((Predicate.oneOf c.idField
      (c.idsOf ((before.records c.name).filter (filter.accepts before.patterns)))).accepts
        after.patterns) =
        ((before.records c.name).filter (filter.accepts before.patterns)).map
          (changed c.idField change) := by
    rw [hrecords, Function.update_self]
    exact filter_map_changed (htargets _) (accepts_oneOf_changed hdot hspares _)
  have hkeys : ∀ record ∈ (before.records c.name).filter (filter.accepts before.patterns),
      ∃ id, Fields.get? c.idField record = some id := by
    intro record hrecord
    obtain ⟨id, hid, -⟩ := hkeyed.keys record (List.mem_filter.1 hrecord).1
    exact ⟨id, hid⟩
  rw [hshown, listed, map_idsOf_eq hkeys hspares, hmatches]

/-! ## Requests -/

theorem changesMatches_of_program (hdot : '.' ∉ c.idField.toList) {operation : Operation}
    {change : Document → Change} {record : Document} {before : Memory.Store}
    (hkeyed : Keyed c.idField (before.records c.name)) (hfield : before.idField = c.idField)
    (hspares : ∀ payload, c.payload record = .ok payload → (change payload).Spares c.idField)
    (filter : Filter.Source) (fields : FieldChoice) {p : Program (List Document)}
    (hp : p = do
      let payload ← c.payload record
      let tree ← filterTree filter
      c.modifyMatching operation (change payload) (c.projection fields) tree) :
    c.ChangesMatches change record filter fields before (p.run handle before) := by
  have hfails : p.FailsWithin handle SameCollections := by
    rw [hp]
    exact failsWithin_lift_bind sameCollections_refl fun _ =>
      failsWithin_lift_bind sameCollections_refl fun _ => failsWithin_modifyMatching c _ _ _ _
  cases hrun : p.run handle before with
  | mk result after =>
      cases result with
      | error failure =>
          exact hfails.of_run_eq_error hrun
      | ok shown =>
          rw [hp] at hrun
          obtain ⟨payload, hpayload, hrest⟩ := run_lift_bind_eq_ok hrun
          obtain ⟨tree, htree, hmodify⟩ := run_lift_bind_eq_ok hrest
          have htotal := (of_run_modifyMatching hdot hmodify).1
          exact ⟨payload, tree, hpayload, htree, htotal,
            of_run_modifyMatching_of_keyed hdot hkeyed hfield (hspares payload hpayload) hmodify⟩

namespace Request

/-- Where the identifiers are keys that the store tells apart, an update by filter changes and
lists just the matches, and so does a merge unless a dotted key leads into the identifier. -/
theorem changesMatches_of_keyed {c : Collection} (hdot : '.' ∉ c.idField.toList)
    {before : Memory.Store} (hfield : before.idField = c.idField)
    (hkeyed : Keyed c.idField (before.records c.name))
    (record : Document) (filter : Filter.Source) (fields : FieldChoice) :
    c.ChangesMatches .replace record filter fields before
      (((replaceWhere record filter fields).program c).run handle before) ∧
    (¬ record.ReachesInto c.idField →
      c.ChangesMatches .merge record filter fields before
        (((mergeWhere record filter fields).program c).run handle before)) := by
  constructor
  · refine changesMatches_of_program hdot hkeyed hfield ?_ filter fields rfl
    exact fun _ _ => trivial
  · intro hreaches
    refine changesMatches_of_program hdot hkeyed hfield ?_ filter fields rfl
    intro payload hpayload entry hentry hhead
    obtain ⟨hmem, hne⟩ := mem_of_payload c hpayload hentry
    exact hreaches ⟨entry, hmem, hne, hhead⟩

theorem changesMatches_of_two_keys :
    let c : Collection := ⟨"c", "_id"⟩
    let before : Memory.Store :=
      { collections := [("c", [[("_id", .int32 1), ("k", .int32 1)],
          [("_id", .string "x"), ("k", .int32 2)]])],
        freshId := .ofNat }
    let filter : Filter.Source := .prebuilt (.test "k" .eq (.int32 1))
    let replacement := ((replaceWhere [("k", .int32 5)] filter default).program c).run handle before
    let merge := ((mergeWhere [("k", .int32 5)] filter default).program c).run handle before
    '.' ∉ c.idField.toList ∧ before.idField = c.idField ∧
    Keyed c.idField (before.records c.name) ∧ ¬ Document.ReachesInto c.idField [("k", .int32 5)] ∧
    replacement.1.toBool = true ∧ merge.1.toBool = true ∧
    c.ChangesMatches .replace [("k", .int32 5)] filter default before replacement ∧
    c.ChangesMatches .merge [("k", .int32 5)] filter default before merge := by
  intro c before filter replacement merge
  have hdot : '.' ∉ c.idField.toList := by decide
  have hkeyed : Keyed c.idField (before.records c.name) := by
    refine ⟨fun record hrecord => ?_, ?_⟩
    · rcases List.mem_pair.1 hrecord with rfl | rfl
      · exact ⟨.int32 1, rfl, trivial⟩
      · exact ⟨.string "x", rfl, trivial⟩
    · refine List.pairwise_pair.2 fun a b ha hb => ?_
      cases ha
      cases hb
      rfl
  have hreaches : ¬ Document.ReachesInto c.idField [("k", .int32 5)] := by
    rintro ⟨entry, hentry, -, hhead⟩
    rw [List.mem_singleton.1 hentry] at hhead
    exact absurd hhead (by decide)
  have hchanges := changesMatches_of_keyed hdot rfl hkeyed [("k", .int32 5)] filter default
  exact ⟨hdot, rfl, hkeyed, hreaches, by decide, by decide, hchanges.1, hchanges.2 hreaches⟩

/-- The nearest double of an integer above `2 ^ 53` equals it for the store, so the record of the
one is changed along with the record of the other. -/
theorem matches_of_integer_and_nearest_double :
    let c : Collection := ⟨"c", "_id"⟩
    let integer : Value := .int64 9007199254740993
    let double : Value := .double ⟨0x4340000000000000⟩
    let before : Memory.Store :=
      { collections := [("c", [[("_id", integer), ("k", .int32 1)],
          [("_id", double), ("k", .int32 2)]])],
        freshId := .ofNat }
    let filter : Predicate := .test "k" .eq (.int32 1)
    let run := ((replaceWhere [("k", .int32 5)] (.prebuilt filter) default).program c).run handle
      before
    integer.IsKey ∧ double.IsKey ∧ integer.same double = false ∧
    (before.records "c").map (filter.accepts before.patterns) = [true, false] ∧
    run.1.toBool = true ∧
    (run.2.records "c").map (fun record => (Fields.get? "k" record).bind Value.integer?) =
      [some 5, some 5] ∧
    ¬ c.ChangesMatches .replace [("k", .int32 5)] (.prebuilt filter) default before run := by
  intro c integer double before filter run
  have hmarks : (before.records "c").map (filter.accepts before.patterns) = [true, false] := by
    decide
  have hok : run.1.toBool = true := by decide +kernel
  have hcounts : (run.2.records "c").map
      (fun record => (Fields.get? "k" record).bind Value.integer?) = [some 5, some 5] := by
    decide +kernel
  refine ⟨trivial, rfl, rfl, hmarks, hok, hcounts, fun hchanges => ?_⟩
  cases hrun : run with
  | mk result after =>
      rw [hrun] at hok hcounts hchanges
      cases result with
      | error failure => cases hok
      | ok shown =>
          obtain ⟨payload, tree, -, htree, -, hafter, -⟩ := hchanges
          have hsame : filter = tree := Except.ok.inj htree
          rw [← hsame] at hafter
          have hsecond :
              filter.accepts before.patterns [("_id", double), ("k", .int32 2)] = false := by
            decide
          have hkept : (after.records "c")[1]? = some [("_id", double), ("k", .int32 2)] := by
            rw [hafter]
            exact congrArg some (if_neg (by rw [hsecond]; exact Bool.false_ne_true))
          have hcount := congrArg (·[1]?) hcounts
          simp only [List.getElem?_map, hkept] at hcount
          exact absurd hcount (by decide)

end Request

end Collection

end DocumentStore
