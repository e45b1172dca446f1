import DocumentStore.Proofs.Collection.Matches
import DocumentStore.Proofs.Collection.Readings

/-!
# Answers with the identifier alone

Where nothing but the identifier is wanted, a list of identifiers is answered without reading.
The answer is that of a reading, cut down to the identifier, just when each identifier is listed
as the first record has it that the store finds it equal in.
-/

namespace DocumentStore

def Outcome.only (field : String) : Outcome → Outcome
  | .record fields => .record (fields.only field)
  | .failed cause => .failed cause
  | .notAttempted => .notAttempted

theorem Literal.shownValue_value (literal : Literal) :
    Identifier.shownValue literal.value = literal.value := by
  cases literal with
  | int n =>
      rw [value, Value.ofInt64]
      split <;> rfl
  | float | bool | string => rfl

theorem IdentifierList.shownValue_stored {ids : IdentifierList} {id : Identifier}
    (h : id ∈ ids.identifiers) : Identifier.shownValue id.stored = id.shown := by
  cases ids with
  | values items =>
      obtain ⟨value, -, rfl⟩ := List.mem_map.1 h
      exact Identifier.shownValue_stored value
  | delimited text =>
      obtain ⟨element, -, rfl⟩ := List.mem_map.1 h
      rw [Identifier.ofText]
      split
      · rfl
      · exact Literal.shownValue_value _

theorem Value.eq_of_shownValue {a b : Value} (ha : a.IsScalar)
    (hequal : a.comparand.equal b.comparand = true)
    (hshown : Identifier.shownValue a = Identifier.shownValue b) : a = b := by
  cases a with
  | objectId id =>
      cases b with
      | objectId other => rw [beq_iff_eq.1 hequal]
      | _ => cases hequal
  | bool | int32 | int64 | double | string | dateTime =>
      cases b with
      | objectId other => cases hequal
      | _ => exact hshown
  | _ => exact ha.elim

theorem ScalarIds.map {field : String} {records : List Document} (h : ScalarIds field records)
    {change : Document → Document}
    (hchange : ∀ record, Fields.get? field (change record) = Fields.get? field record) :
    ScalarIds field (records.map change) := by
  intro changed hchanged id hid
  obtain ⟨record, hrecord, rfl⟩ := List.mem_map.1 hchanged
  exact h record hrecord id ((hchange record).symm.trans hid)

namespace Collection

open Backend Program Memory.Store

variable {c : Collection}

/-- The first record in which the store finds an equal identifier has just this one. -/
def Pinpoints (c : Collection) (records : List Document) (id : Identifier) : Prop :=
  ∃ record, records.find? (hasId c.idField id.stored) = some record ∧
    Fields.get? c.idField record = some id.stored

/-- A run with the records of its answer cut down to the identifier. -/
def cutDown (c : Collection) (run : Except Failure (List Outcome) × Memory.Store) :
    Except Failure (List Outcome) × Memory.Store :=
  (run.1.map (List.map (Outcome.only c.idField)), run.2)

theorem Pinpoints.map {records : List Document} {id : Identifier} (h : c.Pinpoints records id)
    {change : Document → Document}
    (hchange : ∀ record, Fields.get? c.idField (change record) = Fields.get? c.idField record) :
    c.Pinpoints (records.map change) id := by
  obtain ⟨record, hfind, hid⟩ := h
  have hhas : hasId c.idField id.stored ∘ change = hasId c.idField id.stored := by
    funext record
    rw [Function.comp_apply, hasId, hasId, hchange]
  refine ⟨change record, ?_, (hchange record).trans hid⟩
  rw [List.find?_map, hhas, hfind, Option.map_some]

/-! ## One outcome -/

section Outcomes

variable (hdot : '.' ∉ c.idField.toList)

include hdot

theorem only_shown_projection (fields : FieldChoice) {record : Document} {id : Value}
    (hid : Fields.get? c.idField record = some id) :
    (c.shown (c.projection fields) record).only c.idField =
      [(c.idField, Identifier.shownValue id)] := by
  have hkept : Fields.get? c.idField ((c.projection fields).project record) = some id :=
    (get?_project hdot fields record).trans hid
  rw [shown, Identifier.shownRecord, hkept, Document.only, Fields.get?_insert_self]
  rfl

/-- The outcome of a reading, cut down to the identifier, is the identifier as it is listed just
when the record found has it like that. -/
theorem only_outcomeOf_iff {records : List Document} (hstored : ScalarIds c.idField records)
    (fields : FieldChoice) {id : Identifier} (hshown : Identifier.shownValue id.stored = id.shown) :
    (c.outcomeOf (c.projection fields) id (records.find? (hasId c.idField id.stored))).only
        c.idField = .record [(c.idField, id.shown)] ↔
      c.Pinpoints records id := by
  cases hfind : records.find? (hasId c.idField id.stored) with
  | none =>
      refine iff_of_false (fun h => by cases h) ?_
      rintro ⟨record, hrecord, -⟩
      rw [hfind] at hrecord
      cases hrecord
  | some record =>
      have hhas : hasId c.idField id.stored record = true := List.find?_some hfind
      have hrecord := List.mem_of_find?_eq_some hfind
      rw [hasId] at hhas
      cases hid : Fields.get? c.idField record with
      | none => rw [hid] at hhas; cases hhas
      | some stored =>
          rw [hid] at hhas
          have honly := only_shown_projection hdot fields hid
          constructor
          · intro h
            rw [outcomeOf, Outcome.only, honly, ← hshown] at h
            have hsame : Identifier.shownValue stored = Identifier.shownValue id.stored := by
              simpa using h
            rw [Value.eq_of_shownValue (hstored record hrecord stored hid) hhas hsame] at hid
            exact ⟨record, hfind, hid⟩
          · rintro ⟨other, hother, hlisted⟩
            rw [hfind, Option.some_inj] at hother
            rw [← hother, hid, Option.some_inj] at hlisted
            rw [outcomeOf, Outcome.only, honly, hlisted, hshown]

theorem map_only_outcomeOf_iff (reader : PatternReader) {ids : IdentifierList}
    {records : List Document} (hstored : ScalarIds c.idField records) (fields : FieldChoice) :
    c.idOnlyOutcomes ids.identifiers = (ids.identifiers.map fun id =>
        c.outcomeOf (c.projection fields) id
          ((records.filter ((c.keyIn ids.identifiers).accepts reader)).find?
            (c.recognizes (c.projection fields) id))).map (Outcome.only c.idField) ↔
      ∀ id ∈ ids.identifiers, c.Pinpoints records id := by
  rw [idOnlyOutcomes, List.map_map, List.map_inj_left]
  refine forall₂_congr fun id hid => ?_
  rw [Function.comp_apply, find?_recognizes hdot hstored fields hid, eq_comm]
  exact only_outcomeOf_iff hdot hstored fields (IdentifierList.shownValue_stored hid)

end Outcomes

/-! ## Runs -/

theorem run_outcomesOf_only {projection : Projection}
    (honly : projection.keepsOnly c.idField = true) (operation : Operation)
    (ids : List Identifier) (store : Memory.Store) :
    (c.outcomesOf operation projection ids).run handle store =
      (.ok (c.idOnlyOutcomes ids), store) := by
  rw [outcomesOf, honly]
  rfl

theorem run_removeListed {projection : Projection} {ids : List Identifier} {before : Memory.Store}
    {outcomes : List Outcome}
    (houtcomes : (c.outcomesOf .delete projection ids).run handle before =
      (.ok outcomes, before)) :
    (c.removeListed projection ids).run handle before =
      (.ok outcomes, (before.delete c.name (c.keyIn ids)).2) := by
  have hdelete : ∃ count, (before.delete c.name (c.keyIn ids)).1 = .ok count := by
    cases hresult : (before.delete c.name (c.keyIn ids)).1 with
    | ok count => exact ⟨count, rfl⟩
    | error failure =>
        obtain ⟨record, -, cause, hcause⟩ := exists_error_of_delete hresult
        cases hcause
  obtain ⟨count, hcount⟩ := hdelete
  rw [removeListed, run_bind, houtcomes]
  dsimp only
  rw [run_bind, run_perform, handle, hcount]
  rfl

theorem run_removeListed_only_iff (hdot : '.' ∉ c.idField.toList) (ids : IdentifierList)
    {before : Memory.Store} {only fields : FieldChoice}
    (hstored : ScalarIds c.idField (before.records c.name))
    (honly : (c.projection only).keepsOnly c.idField = true)
    (hfields : (c.projection fields).keepsOnly c.idField = false) :
    (c.removeListed (c.projection only) ids.identifiers).run handle before =
        c.cutDown ((c.removeListed (c.projection fields) ids.identifiers).run handle before) ↔
      ∀ id ∈ ids.identifiers, c.Pinpoints (before.records c.name) id := by
  rw [run_removeListed (run_outcomesOf_only honly _ _ _),
    run_removeListed (run_outcomesOf hfields _ _ _), cutDown, Prod.mk.injEq,
    and_iff_left rfl, ← map_only_outcomeOf_iff hdot before.patterns hstored fields]
  exact ⟨Except.ok.inj, congrArg Except.ok⟩

theorem exists_map_of_update {change : Change} {filter : Predicate} {before middle : Memory.Store}
    {count : Nat} (hfield : before.idField = c.idField) (hspares : change.Spares c.idField)
    (hupdate : before.update c.name filter change = (.ok count, middle)) :
    ∃ rewrite : Document → Document,
      middle.records c.name = (before.records c.name).map rewrite ∧
      ∀ record, Fields.get? c.idField (rewrite record) = Fields.get? c.idField record := by
  refine ⟨_, (congrFun (records_update_of_ok hupdate) c.name).trans (Function.update_self ..),
    fun record => ?_⟩
  split
  · rw [hfield]
    exact get?_changed hspares record
  · rfl

theorem run_modifyListed_only (hdot : '.' ∉ c.idField.toList) {operation : Operation}
    {change : Change} {ids : IdentifierList} {before : Memory.Store} {only fields : FieldChoice}
    (hfield : before.idField = c.idField) (hspares : change.Spares c.idField)
    (hstored : ScalarIds c.idField (before.records c.name))
    (honly : (c.projection only).keepsOnly c.idField = true)
    (hfields : (c.projection fields).keepsOnly c.idField = false)
    (h : ∀ id ∈ ids.identifiers, c.Pinpoints (before.records c.name) id) :
    (c.modifyListed operation change (c.projection only) ids.identifiers).run handle before =
      c.cutDown ((c.modifyListed operation change (c.projection fields) ids.identifiers).run handle
        before) := by
  rw [modifyListed, modifyListed, run_bind, run_bind, run_perform, handle]
  cases hupdate : before.update c.name (c.keyIn ids.identifiers) change with
  | mk result middle =>
      cases result with
      | error failure => rfl
      | ok count =>
          obtain ⟨rewrite, hrecords, hids⟩ := exists_map_of_update hfield hspares hupdate
          have hmiddle : ScalarIds c.idField (middle.records c.name) := by
            rw [hrecords]
            exact hstored.map hids
          have hanswers := (map_only_outcomeOf_iff hdot middle.patterns hmiddle fields).2
            fun id hid => hrecords ▸ (h id hid).map hids
          change (c.outcomesOf _ _ _).run handle middle =
            c.cutDown ((c.outcomesOf _ _ _).run handle middle)
          rw [run_outcomesOf_only honly, run_outcomesOf hfields, hanswers]
          rfl

theorem run_lift_bind_eq_cutDown {α : Type} {check : Except Failure α}
    {p q : α → Program (List Outcome)} {store : Memory.Store}
    (h : ∀ a, check = .ok a → (p a).run handle store = c.cutDown ((q a).run handle store)) :
    ((liftM check >>= p : Program (List Outcome)).run handle store) =
      c.cutDown ((liftM check >>= q : Program (List Outcome)).run handle store) := by
  cases check with
  | error failure => rfl
  | ok a => exact h a rfl

/-! ## Requests -/

namespace Request

/-- With the identifier alone as the chosen field a deletion by identifiers fails where it does
with other fields, leaves the same store, and answers the same cut down to the identifier, just
when each identifier is listed as the first record has it that it is found equal in.  An update
by such identifiers agrees as well. -/
theorem idOnly_agrees_iff {c : Collection} (hdot : '.' ∉ c.idField.toList)
    {before : Memory.Store} (hfield : before.idField = c.idField)
    (hstored : ScalarIds c.idField (before.records c.name)) (ids : IdentifierList)
    {only fields : FieldChoice} (honly : (c.projection only).keepsOnly c.idField = true)
    (hfields : (c.projection fields).keepsOnly c.idField = false) (record : Document) :
    (((deleteListed ids only).program c).run handle before =
        c.cutDown (((deleteListed ids fields).program c).run handle before) ↔
      ∀ id ∈ ids.identifiers, c.Pinpoints (before.records c.name) id) ∧
    ((∀ id ∈ ids.identifiers, c.Pinpoints (before.records c.name) id) →
      ((replaceListed record ids only).program c).run handle before =
        c.cutDown (((replaceListed record ids fields).program c).run handle before)) := by
  have hremove := run_removeListed_only_iff hdot ids hstored honly hfields
  refine ⟨⟨fun hrun id hid => ?_, fun h => ?_⟩, fun h => ?_⟩
  · have hread : c.readIds .delete ids = .ok ids.identifiers :=
      readIds_eq_ok_iff.2 ⟨List.ne_nil_of_mem hid, rfl⟩
    simp only [program, Collection.deleteListed, hread] at hrun
    exact hremove.1 hrun id hid
  · refine run_lift_bind_eq_cutDown fun read hread => ?_
    rw [(readIds_eq_ok_iff.1 hread).2]
    exact hremove.2 h
  · refine run_lift_bind_eq_cutDown fun payload _ => ?_
    refine run_lift_bind_eq_cutDown fun read hread => ?_
    rw [(readIds_eq_ok_iff.1 hread).2]
    exact run_modifyListed_only hdot hfield trivial hstored honly hfields h

/-- Of each kind of key one, in another order, with a repetition, and an ObjectId by its text. -/
theorem idOnly_agrees_on_four_keys :
    let c : Collection := ⟨"c", "_id"⟩
    let before : Memory.Store :=
      { collections := [("c", [[("_id", .objectId (.ofNat 7)), ("k", .int32 1)],
          [("_id", .int32 2), ("k", .int32 1)], [("_id", .string "x"), ("k", .int32 1)],
          [("_id", .double ⟨0x3ff8000000000000⟩), ("k", .int32 1)]])],
        freshId := .ofNat }
    let ids : IdentifierList := .values [.string "x", .int32 2, .string "x",
      .string "000000000000000000000007", .double ⟨0x3ff8000000000000⟩]
    let only : FieldChoice := .delimited "_id"
    let fields : FieldChoice := .delimited "k"
    let record : Document := [("k", .int32 5)]
    '.' ∉ c.idField.toList ∧ before.idField = c.idField ∧
    ScalarIds c.idField (before.records c.name) ∧
    (c.projection only).keepsOnly c.idField = true ∧
    (c.projection fields).keepsOnly c.idField = false ∧
    (∀ id ∈ ids.identifiers, c.Pinpoints (before.records c.name) id) ∧
    (((deleteListed ids only).program c).run handle before).1.toBool = true ∧
    (((replaceListed record ids only).program c).run handle before).1.toBool = true ∧
    ((deleteListed ids only).program c).run handle before =
      c.cutDown (((deleteListed ids fields).program c).run handle before) ∧
    ((replaceListed record ids only).program c).run handle before =
      c.cutDown (((replaceListed record ids fields).program c).run handle before) := by
  intro c before ids only fields record
  have hdot : '.' ∉ c.idField.toList := by decide
  have hstored : ScalarIds c.idField (before.records c.name) := by
    intro stored hmem id hid
    rcases List.mem_cons.1 hmem with rfl | hmem
    · cases hid
      trivial
    rcases List.mem_cons.1 hmem with rfl | hmem
    · cases hid
      trivial
    rcases List.mem_pair.1 hmem with rfl | rfl
    · cases hid
      trivial
    · cases hid
      trivial
  have hpinpoints : ∀ id ∈ ids.identifiers, c.Pinpoints (before.records c.name) id := by
    have hdouble : c.Pinpoints (before.records c.name) (.external (.double ⟨0x3ff8000000000000⟩)) :=
      ⟨_, List.find?_eq_some_iff_append.2 ⟨by decide +kernel, (before.records c.name).take 3, [],
        rfl, by decide +kernel⟩, rfl⟩
    simp only [ids, IdentifierList.identifiers, List.map_cons, List.map_nil, List.forall_mem_cons]
    exact ⟨⟨_, rfl, rfl⟩, ⟨_, rfl, rfl⟩, ⟨_, rfl, rfl⟩, ⟨_, rfl, rfl⟩, hdouble,
      List.forall_mem_nil _⟩
  have honly : (c.projection only).keepsOnly c.idField = true := by decide
  have hfields : (c.projection fields).keepsOnly c.idField = false := by decide
  have hagrees := idOnly_agrees_iff hdot rfl hstored ids honly hfields record
  exact ⟨hdot, rfl, hstored, honly, hfields, hpinpoints, by decide +kernel,
    by decide +kernel, hagrees.1.2 hpinpoints, hagrees.2 hpinpoints⟩

/-- A reading finds the record of the integer that the listed double is the nearest to, although
a later record has the double. -/
theorem idOnly_of_integer_and_nearest_double :
    let c : Collection := ⟨"c", "_id"⟩
    let integer : Value := .int64 9007199254740993
    let double : Value := .double ⟨0x4340000000000000⟩
    let before : Memory.Store :=
      { collections := [("c", [[("_id", integer), ("k", .int32 1)],
          [("_id", double), ("k", .int32 2)]])],
        freshId := .ofNat }
    let ids : IdentifierList := .values [double]
    let short := ((deleteListed ids (.delimited "_id")).program c).run handle before
    let full := ((deleteListed ids (.delimited "k")).program c).run handle before
    let integers (run : Except Failure (List Outcome) × Memory.Store) :=
      run.1.toOption.map (List.map fun outcome =>
        (outcome.record?.bind (Fields.get? "_id")).bind Value.integer?)
    integer.IsKey ∧ double.IsKey ∧ integer.same double = false ∧
    ids.identifiers.map Identifier.stored = [double] ∧
    short.1 = .ok [.record [("_id", double)]] ∧
    integers full = some [some 9007199254740993] ∧ short ≠ c.cutDown full := by
  intro c integer double before ids short full integers
  have hshort : integers short = some [none] := by decide +kernel
  have hfull : integers full = some [some 9007199254740993] := by decide +kernel
  have hcut : integers (c.cutDown full) = some [some 9007199254740993] := by decide +kernel
  refine ⟨trivial, rfl, rfl, rfl, rfl, hfull, fun hsame => ?_⟩
  rw [hsame, hcut] at hshort
  cases hshort

end Request

end Collection

end DocumentStore
