import DocumentStore.Proofs.Collection.Failures
import DocumentStore.Proofs.Collection.Readings
import DocumentStore.Proofs.Collection.Revisions

/-!
# Changes of the records that are listed

A change by a list of identifiers changes the records that have one of them, and then looks
each identifier up in what is stored.  Identifiers that are compared exactly, and that no two
records share, address one record each, before the change and after it.
-/

namespace DocumentStore

def Document.exactKey? (field : String) (record : Document) : Option Value.ExactKey :=
  (Fields.get? field record).bind Value.exactKey?

/-- Every record has an exact key, and no two records have the same. -/
structure ExactlyKeyed (field : String) (records : List Document) : Prop where
  keys : ∀ record ∈ records, (record.exactKey? field).isSome = true
  distinct : (records.map (Document.exactKey? field)).Nodup

theorem ExactlyKeyed.scalarIds {field : String} {records : List Document}
    (h : ExactlyKeyed field records) : ScalarIds field records := by
  intro record hrecord id hid
  have hkey := h.keys record hrecord
  rw [Document.exactKey?, hid] at hkey
  exact Value.isScalar_of_exactKey? hkey

theorem ExactlyKeyed.exists_get? {field : String} {records : List Document}
    (h : ExactlyKeyed field records) {record : Document} (hrecord : record ∈ records) :
    ∃ id, Fields.get? field record = some id := by
  obtain ⟨key, hkey⟩ := Option.isSome_iff_exists.1 (h.keys record hrecord)
  obtain ⟨id, hid, -⟩ := Option.bind_eq_some_iff.1 hkey
  exact ⟨id, hid⟩

theorem ExactlyKeyed.eq_of_exactKey? {field : String} {records : List Document}
    (h : ExactlyKeyed field records) {first second : Document} (hfirst : first ∈ records)
    (hsecond : second ∈ records) (hkey : first.exactKey? field = second.exactKey? field) :
    first = second :=
  List.inj_on_of_nodup_map h.distinct hfirst hsecond hkey

theorem ExactlyKeyed.of_same {field : String} {records others : List Document}
    (h : ExactlyKeyed field records)
    (hsame : records.map (Fields.get? field) = others.map (Fields.get? field)) :
    ExactlyKeyed field others := by
  have hkeys : records.map (Document.exactKey? field) = others.map (Document.exactKey? field) := by
    have hmap := congrArg (List.map (Option.bind · Value.exactKey?)) hsame
    rwa [List.map_map, List.map_map] at hmap
  constructor
  · intro record hrecord
    have hmem : record.exactKey? field ∈ records.map (Document.exactKey? field) :=
      hkeys ▸ List.mem_map_of_mem hrecord
    obtain ⟨other, hother, hkey⟩ := List.mem_map.1 hmem
    exact hkey ▸ h.keys other hother
  · exact hkeys ▸ h.distinct

theorem ExactlyKeyed.map {field : String} {records : List Document}
    (h : ExactlyKeyed field records) {change : Document → Document}
    (hchange : ∀ record, Fields.get? field (change record) = Fields.get? field record) :
    ExactlyKeyed field (records.map change) := by
  refine h.of_same ?_
  rw [List.map_map]
  exact List.map_congr_left fun record _ => (hchange record).symm

theorem ExactlyKeyed.sublist {field : String} {records others : List Document}
    (h : ExactlyKeyed field records) (hsub : others.Sublist records) :
    ExactlyKeyed field others :=
  ⟨fun record hrecord => h.keys record (hsub.subset hrecord), h.distinct.sublist (hsub.map _)⟩

namespace Collection

open Backend Program Memory.Store

variable {c : Collection}

def carries (c : Collection) (id : Identifier) (record : Document) : Bool :=
  record.exactKey? c.idField = id.stored.exactKey?

/-- The record with the identifier as it is shown, if there is one. -/
structure Reports (c : Collection) (projection : Projection) (records : List Document)
    (id : Identifier) (outcome : Outcome) : Prop where
  found : ∀ record ∈ records, c.carries id record = true →
    outcome = .record (c.shown projection record)
  missing : (∀ record ∈ records, c.carries id record = false) → outcome = .failed (c.notFound id)

/-- A run either fails and leaves all collections alone, because the request is refused or a
listed record would lose a required field, or changes every listed record in its place and no
other, and reports on each identifier in their order from what is stored then. -/
def ChangesListed (c : Collection) (change : Document → Change) (record : Document)
    (ids : IdentifierList) (fields : FieldChoice) (before : Memory.Store) :
    Except Failure (List Outcome) × Memory.Store → Prop
  | (.error _, after) =>
    after.collections = before.collections ∧
      ∀ payload, c.payload record = .ok payload → ids.identifiers ≠ [] →
        ∃ stored ∈ before.records c.name, ids.identifiers.any (c.carries · stored) = true ∧
          ∃ field, before.missingField? c.name (changed c.idField (change payload) stored) =
            some field
  | (.ok outcomes, after) =>
    ∃ payload, c.payload record = .ok payload ∧
      after.records = Function.update before.records c.name
        ((before.records c.name).map fun stored =>
          if ids.identifiers.any (c.carries · stored) then
            changed c.idField (change payload) stored
          else stored) ∧
      Fields.keys after.collections = Fields.keys before.collections ∧
      List.Forall₂ (c.Reports (c.projection fields) (after.records c.name)) ids.identifiers
        outcomes

/-! ## Exact identifiers -/

theorem hasId_eq_carries {record : Document} (hrecord : (record.exactKey? c.idField).isSome = true)
    {id : Identifier} (hid : id.stored.exactKey?.isSome = true) :
    hasId c.idField id.stored record = c.carries id record := by
  obtain ⟨key, hkey⟩ := Option.isSome_iff_exists.1 hrecord
  obtain ⟨wanted, hwanted⟩ := Option.isSome_iff_exists.1 hid
  obtain ⟨stored, hget, hstored⟩ := Option.bind_eq_some_iff.1 hkey
  rw [hasId, hget, carries, hkey, hwanted]
  simp [Value.equal_eq_of_exactKey? hstored hwanted]

theorem accepts_keyIs_of_exact {reader : PatternReader} (hdot : '.' ∉ c.idField.toList)
    {record : Document}
    (hrecord : (record.exactKey? c.idField).isSome = true) {id : Identifier}
    (hid : id.stored.exactKey?.isSome = true) :
    (c.keyIs id).accepts reader record = c.carries id record := by
  have hstored : ∀ stored, Fields.get? c.idField record = some stored → stored.IsScalar := by
    intro stored hget
    rw [Document.exactKey?, hget] at hrecord
    exact Value.isScalar_of_exactKey? hrecord
  rw [accepts_keyIs_eq_hasId hdot hstored (Value.isScalar_of_exactKey? hid),
    hasId_eq_carries hrecord hid]

section Records

variable {records : List Document} (hkeyed : ExactlyKeyed c.idField records)

include hkeyed

theorem accepts_keyIn_of_exact {reader : PatternReader} (hdot : '.' ∉ c.idField.toList)
    {ids : List Identifier}
    (hids : ∀ id ∈ ids, id.stored.exactKey?.isSome = true) {record : Document}
    (hrecord : record ∈ records) :
    (c.keyIn ids).accepts reader record = ids.any (c.carries · record) := by
  rw [accepts_keyIn, Bool.eq_iff_iff, List.any_eq_true, List.any_eq_true]
  refine exists_congr fun id => and_congr_right fun hid => ?_
  rw [accepts_keyIs_of_exact hdot (hkeyed.keys record hrecord) (hids id hid)]

theorem find?_carries {id : Identifier} {record : Document} (hrecord : record ∈ records)
    (hcarries : c.carries id record = true) : records.find? (c.carries id) = some record := by
  cases hfind : records.find? (c.carries id) with
  | none => exact absurd hcarries (List.find?_eq_none.1 hfind record hrecord)
  | some first =>
      have hfirst : c.carries id first = true := List.find?_some hfind
      rw [carries, decide_eq_true_eq] at hcarries hfirst
      rw [hkeyed.eq_of_exactKey? (List.mem_of_find?_eq_some hfind) hrecord
        (hfirst.trans hcarries.symm)]

theorem reports_find? (projection : Projection) {id : Identifier}
    (hid : id.stored.exactKey?.isSome = true) :
    c.Reports projection records id
      (c.outcomeOf projection id (records.find? (hasId c.idField id.stored))) := by
  have hhas (record : Document) (hrecord : record ∈ records) :
      hasId c.idField id.stored record = c.carries id record :=
    hasId_eq_carries (hkeyed.keys record hrecord) hid
  rw [List.find?_congr hhas]
  constructor
  · intro record hrecord hcarries
    rw [find?_carries hkeyed hrecord hcarries]
    rfl
  · intro hmissing
    have hnone : records.find? (c.carries id) = none :=
      List.find?_eq_none.2 fun record hrecord => by simp [hmissing record hrecord]
    rw [hnone]
    rfl

end Records

/-! ## What a change by identifiers leaves and answers -/

section Modifying

variable {operation : Operation} {change : Change} {fields : FieldChoice} {ids : List Identifier}
    {before after : Memory.Store}

theorem exists_missingField_of_run_modifyListed {projection : Projection} {failure : Failure}
    (hrun : (c.modifyListed operation change projection ids).run handle before =
      (.error failure, after)) :
    ∃ stored ∈ before.records c.name, (c.keyIn ids).accepts before.patterns stored = true ∧
      ∃ field, before.missingField? c.name (changed before.idField change stored) =
        some field := by
  rcases of_run_bind_eq_error hrun with hupdate | ⟨count, middle, -, hanswer⟩
  · obtain ⟨cause, hcause⟩ := exists_of_run_perform_eq_error hupdate
    rcases exists_error_of_update hcause with ⟨stored, -, cause, hevaluate⟩ | hmissing
    · -- A filter by values can be evaluated on every record.
      cases hevaluate
    · exact hmissing
  · obtain ⟨outcomes, houtcomes⟩ := succeeds_outcomesOf c operation projection ids middle
    rw [hanswer] at houtcomes
    cases houtcomes

theorem of_run_modifyListed {projection : Projection} {outcomes : List Outcome}
    (hfields : projection.keepsOnly c.idField = false)
    (hrun : (c.modifyListed operation change projection ids).run handle before =
      (.ok outcomes, after)) :
    after.records = Function.update before.records c.name
      ((before.records c.name).map fun stored =>
        if (c.keyIn ids).accepts before.patterns stored then
          changed before.idField change stored
        else stored) ∧
    Fields.keys after.collections = Fields.keys before.collections ∧
    outcomes = ids.map fun id => c.outcomeOf projection id
      (((after.records c.name).filter ((c.keyIn ids).accepts after.patterns)).find?
        (c.recognizes projection id)) := by
  obtain ⟨count, middle, hupdate, hanswer⟩ := exists_of_run_bind_eq_ok hrun
  have hcall := handle_of_run_perform_eq_ok hupdate
  rw [run_outcomesOf hfields] at hanswer
  obtain ⟨houtcomes, rfl⟩ := Prod.mk.inj hanswer
  exact ⟨records_update_of_ok hcall, keys_update_of_ok hcall, (Except.ok.inj houtcomes).symm⟩

theorem of_run_modifyListed_of_exact (hdot : '.' ∉ c.idField.toList)
    (hfield : before.idField = c.idField) (hspares : change.Spares c.idField)
    (hkeyed : ExactlyKeyed c.idField (before.records c.name))
    (hids : ∀ id ∈ ids, id.stored.exactKey?.isSome = true)
    (hfields : (c.projection fields).keepsOnly c.idField = false) {outcomes : List Outcome}
    (hrun : (c.modifyListed operation change (c.projection fields) ids).run handle before =
      (.ok outcomes, after)) :
    after.records = Function.update before.records c.name
      ((before.records c.name).map fun stored =>
        if ids.any (c.carries · stored) then changed c.idField change stored else stored) ∧
    Fields.keys after.collections = Fields.keys before.collections ∧
    List.Forall₂ (c.Reports (c.projection fields) (after.records c.name)) ids outcomes := by
  obtain ⟨hupdated, hkeys, houtcomes⟩ := of_run_modifyListed hfields hrun
  have hafter : after.records = Function.update before.records c.name
      ((before.records c.name).map fun stored =>
        if ids.any (c.carries · stored) then changed c.idField change stored else stored) := by
    rw [hupdated, hfield]
    congr 1
    apply List.map_congr_left
    intro stored hstored
    rw [accepts_keyIn_of_exact hkeyed hdot hids hstored]
  -- No change touches an identifier, so the records are keyed as they were.
  have hkeyedAfter : ExactlyKeyed c.idField (after.records c.name) := by
    rw [hafter, Function.update_self]
    apply hkeyed.map
    intro stored
    split
    · exact get?_changed hspares stored
    · rfl
  refine ⟨hafter, hkeys, ?_⟩
  rw [houtcomes, List.forall₂_map_right_iff, List.forall₂_same]
  intro id hid
  rw [find?_recognizes hdot hkeyedAfter.scalarIds fields hid]
  exact reports_find? hkeyedAfter _ (hids id hid)

end Modifying

/-! ## Requests -/

theorem changesListed_of_program (hdot : '.' ∉ c.idField.toList) {operation : Operation}
    {change : Document → Change} {record : Document} {before : Memory.Store}
    (hfield : before.idField = c.idField)
    (hkeyed : ExactlyKeyed c.idField (before.records c.name))
    (hspares : ∀ payload, c.payload record = .ok payload → (change payload).Spares c.idField)
    {ids : IdentifierList} (hids : ∀ id ∈ ids.identifiers, id.stored.exactKey?.isSome = true)
    {fields : FieldChoice} (hfields : (c.projection fields).keepsOnly c.idField = false)
    {p : Program (List Outcome)}
    (hp : p = do
      let payload ← c.payload record
      let ids ← c.readIds operation ids
      c.modifyListed operation (change payload) (c.projection fields) ids) :
    c.ChangesListed change record ids fields before (p.run handle before) := by
  have hfails : p.FailsWithin handle SameCollections := by
    rw [hp]
    exact failsWithin_lift_bind sameCollections_refl fun _ =>
      failsWithin_lift_bind sameCollections_refl fun _ => failsWithin_modifyListed c _ _ _ _
  cases hrun : p.run handle before with
  | mk result after =>
      cases result with
      | error failure =>
          refine ⟨hfails.of_run_eq_error hrun, fun payload hpayload hsome => ?_⟩
          have hread : c.readIds operation ids = .ok ids.identifiers :=
            readIds_eq_ok_iff.2 ⟨hsome, rfl⟩
          rw [hp, hpayload, hread] at hrun
          obtain ⟨stored, hstored, haccepts, hmissing⟩ :=
            exists_missingField_of_run_modifyListed hrun
          rw [accepts_keyIn_of_exact hkeyed hdot hids hstored] at haccepts
          rw [hfield] at hmissing
          exact ⟨stored, hstored, haccepts, hmissing⟩
      | ok outcomes =>
          rw [hp] at hrun
          obtain ⟨payload, hpayload, hrest⟩ := run_lift_bind_eq_ok hrun
          obtain ⟨read, hread, hmodify⟩ := run_lift_bind_eq_ok hrest
          obtain ⟨-, rfl⟩ := readIds_eq_ok_iff.1 hread
          exact ⟨payload, hpayload,
            of_run_modifyListed_of_exact hdot hfield (hspares payload hpayload) hkeyed hids hfields
              hmodify⟩

namespace Request

/-- Where all identifiers are exact and the stored ones distinct, an update by identifiers
changes the listed records and reports on them, and so does a merge unless a dotted key leads
into the identifier. -/
theorem changesListed_of_exactlyKeyed {c : Collection} (hdot : '.' ∉ c.idField.toList)
    {before : Memory.Store} (hfield : before.idField = c.idField)
    (hkeyed : ExactlyKeyed c.idField (before.records c.name)) (record : Document)
    {ids : IdentifierList} (hids : ∀ id ∈ ids.identifiers, id.stored.exactKey?.isSome = true)
    {fields : FieldChoice} (hfields : (c.projection fields).keepsOnly c.idField = false) :
    c.ChangesListed .replace record ids fields before
      (((replaceListed record ids fields).program c).run handle before) ∧
    (¬ record.ReachesInto c.idField →
      c.ChangesListed .merge record ids fields before
        (((mergeListed record ids fields).program c).run handle before)) := by
  constructor
  · refine changesListed_of_program hdot hfield hkeyed ?_ hids hfields rfl
    exact fun _ _ => trivial
  · intro hreaches
    refine changesListed_of_program hdot hfield hkeyed ?_ hids hfields rfl
    exact fun _ hpayload => spares_of_payload hreaches hpayload

/-- The identifier 1 is listed twice, in either width, and of the identifier `y` there is no
record. -/
theorem changesListed_of_two_widths :
    let c : Collection := ⟨"c", "_id"⟩
    let before : Memory.Store :=
      { collections := [("c", [[("_id", .int32 1), ("k", .int32 1)],
          [("_id", .string "x"), ("k", .int32 2)]])],
        freshId := .ofNat }
    let ids : IdentifierList := .values [.int64 1, .string "y", .int32 1]
    let replacement := ((replaceListed [("k", .int32 5)] ids default).program c).run handle before
    let merge := ((mergeListed [("k", .int32 5)] ids default).program c).run handle before
    '.' ∉ c.idField.toList ∧ before.idField = c.idField ∧
    ExactlyKeyed c.idField (before.records c.name) ∧
    (∀ id ∈ ids.identifiers, id.stored.exactKey?.isSome = true) ∧
    (c.projection default).keepsOnly c.idField = false ∧
    ¬ Document.ReachesInto c.idField [("k", .int32 5)] ∧
    replacement.1.toBool = true ∧ merge.1.toBool = true ∧
    c.ChangesListed .replace [("k", .int32 5)] ids default before replacement ∧
    c.ChangesListed .merge [("k", .int32 5)] ids default before merge := by
  intro c before ids replacement merge
  have hdot : '.' ∉ c.idField.toList := by decide
  have hkeyed : ExactlyKeyed c.idField (before.records c.name) := ⟨by decide, by decide⟩
  have hids : ∀ id ∈ ids.identifiers, id.stored.exactKey?.isSome = true := by decide
  have hfields : (c.projection default).keepsOnly c.idField = false := rfl
  have hreaches : ¬ Document.ReachesInto c.idField [("k", .int32 5)] := by
    rintro ⟨entry, hentry, -, hhead⟩
    rw [List.mem_singleton.1 hentry] at hhead
    exact absurd hhead (by decide)
  have hchanges := changesListed_of_exactlyKeyed hdot rfl hkeyed [("k", .int32 5)] hids hfields
  exact ⟨hdot, rfl, hkeyed, hids, hfields, hreaches, by decide, by decide, hchanges.1,
    hchanges.2 hreaches⟩

end Request

end Collection

end DocumentStore
