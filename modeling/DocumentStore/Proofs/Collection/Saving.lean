import DocumentStore.Proofs.Collection.ListedChanges
import DocumentStore.Proofs.Collection.ReadBack

/-!
# Saving a record under its identifier

The creation of a record with an identifier puts it in the place of the first record that the
identifier addresses, which keeps its own identifier, or behind the others if there is none.
Identifiers that are compared exactly address one record at most.
-/

namespace DocumentStore

open Backend Program Memory Memory.Store

namespace Memory.Store

theorem missingField?_of_get? (store : Store) (collection : String) {first second : Document}
    (h : ∀ key, Fields.get? key first = Fields.get? key second) :
    store.missingField? collection first = store.missingField? collection second := by
  have hpresent : isPresent first = isPresent second := by
    funext field
    rw [isPresent, isPresent, Document.valueOf?_congr h]
  rw [missingField?, missingField?, hpresent]

end Memory.Store

namespace Collection

theorem get?_replaced_self {idField : String} {body : Document} {id : Value}
    (hid : Fields.get? idField body = some id) (hbody : (Fields.keys body).Nodup)
    (key : String) : Fields.get? key (replaced idField body body) = Fields.get? key body := by
  by_cases hkey : key = idField
  · rw [hkey, get?_replaced]
  · rw [replaced_eq_cons hid hbody, Fields.get?_cons, if_neg (Ne.symm hkey),
      Fields.get?_erase_of_ne hkey]

theorem replaced_self_perm {idField : String} {body : Document} {id : Value}
    (hid : Fields.get? idField body = some id) (hbody : (Fields.keys body).Nodup) :
    (replaced idField body body).Perm body := by
  have hperm := Fields.insert_perm hbody idField id
  rw [Fields.insert_of_get? hid] at hperm
  rw [replaced_eq_cons hid hbody]
  exact hperm.symm

theorem erase_replaced {idField : String} {previous body : Document} {id : Value}
    (hid : Fields.get? idField previous = some id) (hbody : (Fields.keys body).Nodup) :
    Fields.erase idField (replaced idField previous body) = Fields.erase idField body := by
  rw [replaced_eq_cons hid hbody, Fields.erase, List.filter_cons_of_neg (by simp)]
  exact Fields.erase_erase_self idField body

variable {c : Collection}

/-! ## The run of a creation with an identifier -/

/-- The body was put in the place of the first record that the identifier addresses, or behind the
others if there is none. -/
inductive SavedUnder (c : Collection) (key : Identifier) (body : Document)
    (store : Memory.Store) : Memory.Store → Prop
  | inPlace {front behind : List Document} {previous : Document}
      (hrecords : store.records c.name = front ++ previous :: behind)
      (hfront : ∀ other ∈ front, (c.keyIs key).accepts store.patterns other = false)
      (hprevious : (c.keyIs key).accepts store.patterns previous = true)
      (hmissing : store.missingField? c.name (replaced c.idField previous body) = none) :
      SavedUnder c key body store
        (store.setRecords c.name (front ++ replaced c.idField previous body :: behind))
  | behindAll
      (hnone : ∀ other ∈ store.records c.name, (c.keyIs key).accepts store.patterns other = false)
      (hmissing : store.missingField? c.name body = none) :
      SavedUnder c key body store (store.setRecords c.name (store.records c.name ++ [body]))

theorem SavedUnder.settings {key : Identifier} {body : Document} {store after : Memory.Store}
    (h : c.SavedUnder key body store after) : after.settings = store.settings := by
  cases h <;> rfl

theorem run_createOne_of_ofRecord? {record : Document} (hsome : record ≠ []) {key : Identifier}
    (hkey : Identifier.ofRecord? c.idField (Identifier.storedRecord c.idField record) = some key)
    (fields : FieldChoice) (store : Memory.Store) :
    ((Request.createOne record fields).program c).run handle store =
      (((store.replace c.name (c.keyIs key) (Identifier.storedRecord c.idField record) true).1
        |>.mapError (.within .create c.name)).map fun _ =>
          c.shown (c.projection fields) (Identifier.storedRecord c.idField record),
        (store.replace c.name (c.keyIs key) (Identifier.storedRecord c.idField record)
          true).2) := by
  have hcheck : createOne.nonEmpty record = .ok () := by
    rw [createOne.nonEmpty, if_neg (mt List.isEmpty_iff.1 hsome)]
  rw [Request.program, createOne, hcheck]
  simp only [hkey]
  change (perform .create c.name (.replace c.name (c.keyIs key) _ true) >>= _).run handle store = _
  rw [run_bind, run_perform, handle]
  cases (store.replace c.name (c.keyIs key) (Identifier.storedRecord c.idField record) true).1 with
  | ok count => rfl
  | error failure => rfl

section Saving

variable {store after : Memory.Store} (hfield : store.idField = c.idField) {record : Document}
    (hsome : record ≠ []) {key : Identifier}
    (hkey : Identifier.ofRecord? c.idField (Identifier.storedRecord c.idField record) = some key)

include hfield hsome hkey

/-- The first record that the identifier addresses gives its place and its identifier away. -/
theorem run_createOne_of_append {front behind : List Document} {previous : Document}
    (hrecords : store.records c.name = front ++ previous :: behind)
    (hfront : ∀ other ∈ front, (c.keyIs key).accepts store.patterns other = false)
    (hprevious : (c.keyIs key).accepts store.patterns previous = true)
    (hmissing : store.missingField? c.name
      (replaced c.idField previous (Identifier.storedRecord c.idField record)) = none)
    (fields : FieldChoice) :
    ((Request.createOne record fields).program c).run handle store =
      (.ok (c.shown (c.projection fields) (Identifier.storedRecord c.idField record)),
        store.setRecords c.name (front ++
          replaced c.idField previous (Identifier.storedRecord c.idField record) :: behind)) := by
  rw [run_createOne_of_ofRecord? hsome hkey,
    replace_of_append (evaluate_keyIs_total c key store) hrecords hfront hprevious, checked, hfield,
    hmissing]
  rfl

theorem savedUnder_of_run_createOne {fields : FieldChoice} {shown : Document}
    (hrun : ((Request.createOne record fields).program c).run handle store = (.ok shown, after)) :
    shown = c.shown (c.projection fields) (Identifier.storedRecord c.idField record) ∧
      c.SavedUnder key (Identifier.storedRecord c.idField record) store after := by
  have htotal := evaluate_keyIs_total c key store
  have hid : Fields.contains store.idField (Identifier.storedRecord c.idField record) = true := by
    rw [hfield, Fields.contains, Identifier.get?_storedRecord_of_ofRecord? hkey]
    rfl
  rw [run_createOne_of_ofRecord? hsome hkey] at hrun
  rcases Marked.splitAtMatch?_mark_eq store.patterns (c.keyIs key) (store.records c.name) with
    ⟨hsplit, -⟩ | ⟨front, previous, behind, -, hrecords, hprevious, hfront, -⟩
  · have hnone := Marked.splitAtMatch?_mark_eq_none hsplit
    rw [replace_of_none htotal hnone hid] at hrun
    cases hchecked : store.checked c.name (Identifier.storedRecord c.idField record) with
    | error failure =>
        rw [hchecked] at hrun
        cases hrun
    | ok stored =>
        cases eq_of_checked hchecked
        rw [hchecked] at hrun
        cases hrun
        exact ⟨rfl, .behindAll hnone (missingField?_of_checked hchecked)⟩
  · rw [replace_of_append htotal hrecords hfront hprevious, hfield] at hrun
    cases hchecked : store.checked c.name
        (replaced c.idField previous (Identifier.storedRecord c.idField record)) with
    | error failure =>
        rw [hchecked] at hrun
        cases hrun
    | ok stored =>
        cases eq_of_checked hchecked
        rw [hchecked] at hrun
        cases hrun
        exact ⟨rfl, .inPlace hrecords hfront hprevious (missingField?_of_checked hchecked)⟩

end Saving

/-! ## Identifiers that are compared exactly -/

/-- One record has the identifier afterwards, with the other fields of the body.  It stands where
the record with that identifier stood, or behind all others if there was none. -/
structure Saves (c : Collection) (key : Identifier) (body : Document)
    (before after : Memory.Store) (front behind : List Document) (saved : Document) : Prop where
  stored : after.records = Function.update before.records c.name (front ++ saved :: behind)
  place : (∃ previous, before.records c.name = front ++ previous :: behind ∧
      c.carries key previous = true) ∨
    before.records c.name = front ∧ behind = []
  carries : c.carries key saved = true
  others : ∀ other ∈ front ++ behind, c.carries key other = false
  fields : Fields.erase c.idField saved = Fields.erase c.idField body

theorem carries_congr {key : Identifier} {first second : Document}
    (h : Fields.get? c.idField first = Fields.get? c.idField second) :
    c.carries key first = c.carries key second := by
  rw [carries, carries, Document.exactKey?, Document.exactKey?, h]

theorem accepts_keyIs_congr (hdot : '.' ∉ c.idField.toList) {reader other : PatternReader}
    {key : Identifier} {first second : Document}
    (h : Fields.get? c.idField first = Fields.get? c.idField second) :
    (c.keyIs key).accepts reader first = (c.keyIs key).accepts other second := by
  rw [accepts_keyIs hdot, accepts_keyIs hdot, h]

theorem not_carries_of_append {key : Identifier} {front behind : List Document}
    {previous : Document} (hkeyed : ExactlyKeyed c.idField (front ++ previous :: behind))
    (hprevious : c.carries key previous = true) :
    ∀ other ∈ front ++ behind, c.carries key other = false := by
  intro other hother
  have hdistinct := hkeyed.distinct
  rw [List.map_append, List.map_cons, List.nodup_middle, ← List.map_append] at hdistinct
  have hnot := (List.nodup_cons.1 hdistinct).1
  rw [carries, decide_eq_true_eq] at hprevious
  rw [carries, decide_eq_false_iff_not, ← hprevious]
  exact fun hsame => hnot (hsame ▸ List.mem_map_of_mem hother)

theorem Saves.grows_iff {key : Identifier} {body : Document} {before after : Memory.Store}
    {front behind : List Document} {saved : Document}
    (h : c.Saves key body before after front behind saved) :
    (after.records c.name).length = (before.records c.name).length + 1 ↔
      ∀ other ∈ before.records c.name, c.carries key other = false := by
  rw [h.stored, Function.update_self]
  rcases h.place with ⟨previous, hrecords, hprevious⟩ | ⟨hrecords, hbehind⟩
  · refine iff_of_false ?_ fun hnone => ?_
    · rw [hrecords]
      simp
    · have hmem : previous ∈ before.records c.name := by rw [hrecords]; simp
      rw [hnone previous hmem] at hprevious
      cases hprevious
  · refine iff_of_true ?_ ?_
    · rw [hrecords, hbehind]
      simp
    · have hothers := h.others
      rwa [hbehind, List.append_nil, ← hrecords] at hothers

section Exact

variable {before after : Memory.Store} (hdot : '.' ∉ c.idField.toList)
    (hfield : before.idField = c.idField)
    (hkeyed : ExactlyKeyed c.idField (before.records c.name)) {key : Identifier}
    (hexact : key.stored.exactKey?.isSome = true) {body : Document}
    (hid : Fields.get? c.idField body = some key.stored) (hbody : (Fields.keys body).Nodup)

include hdot hkeyed hexact hid hbody

theorem saves_of_savedUnder (h : c.SavedUnder key body before after) :
    ∃ front behind saved, c.Saves key body before after front behind saved ∧
      (∀ other ∈ front, (c.keyIs key).accepts before.patterns other = false) ∧
      (c.keyIs key).accepts before.patterns saved = true ∧
      before.missingField? c.name (replaced c.idField saved body) = none ∧
      (replaced c.idField saved body).Perm saved := by
  have haccepts (other : Document) (hother : other ∈ before.records c.name) :
      (c.keyIs key).accepts before.patterns other = c.carries key other :=
    accepts_keyIs_of_exact hdot (hkeyed.keys other hother) hexact
  cases h with
  | @inPlace front behind previous hrecords hfront hprevious hmissing =>
      have hmem : previous ∈ before.records c.name := by rw [hrecords]; simp
      have hcarries : c.carries key previous = true := (haccepts previous hmem).symm.trans hprevious
      obtain ⟨old, hold⟩ := hkeyed.exists_get? hmem
      -- what was saved has the identifier of its predecessor, so the same body is saved again
      have hsame := get?_replaced c.idField previous body
      have hagain := replaced_congr hsame body
      refine ⟨front, behind, replaced c.idField previous body, ?_, hfront, ?_, ?_, ?_⟩
      · exact {
          stored := records_setRecords before c.name _
          place := .inl ⟨previous, hrecords, hcarries⟩
          carries := (carries_congr hsame).trans hcarries
          others := not_carries_of_append (hrecords ▸ hkeyed) hcarries
          fields := erase_replaced hold hbody }
      · exact (accepts_keyIs_congr hdot hsame).trans hprevious
      · rw [hagain, hmissing]
      · rw [hagain]
  | behindAll hnone hmissing =>
      -- the body stood for no record before, and is the one that it replaces the next time
      have hkey : body.exactKey? c.idField = key.stored.exactKey? := by
        rw [Document.exactKey?, hid, Option.bind_some]
      have hcarries : c.carries key body = true := decide_eq_true hkey
      refine ⟨before.records c.name, [], body, ?_, hnone, ?_, ?_, replaced_self_perm hid hbody⟩
      · exact {
          stored := records_setRecords before c.name _
          place := .inr ⟨rfl, rfl⟩
          carries := hcarries
          others := fun other hother => by
            rw [List.append_nil] at hother
            rw [← haccepts other hother, hnone other hother]
          fields := rfl }
      · rw [accepts_keyIs_of_exact hdot (hkey ▸ hexact) hexact, hcarries]
      · rw [missingField?_of_get? before c.name (get?_replaced_self hid hbody), hmissing]

end Exact

namespace Request

/-- A record with an exact identifier is saved over the one that has it, if there is one, and the
same creation again succeeds and changes no more than the order of its fields. -/
theorem saves_of_createOne {c : Collection} (hdot : '.' ∉ c.idField.toList)
    {before : Memory.Store} (hfield : before.idField = c.idField)
    (hkeyed : ExactlyKeyed c.idField (before.records c.name)) {record : Document}
    (hrecord : (Fields.keys record).Nodup) {id : Value}
    (hid : (Fields.get? c.idField record).or (Fields.get? Identifier.aliasField record) = some id)
    (hexact : (Identifier.ofValue false id).stored.exactKey?.isSome = true) {fields : FieldChoice}
    {shown : Document} {after : Memory.Store}
    (hrun : ((createOne record fields).program c).run handle before = (.ok shown, after)) :
    ∃ front behind saved,
      c.Saves (.ofValue false id) (Identifier.storedRecord c.idField record) before after front
        behind saved ∧
      ((after.records c.name).length = (before.records c.name).length + 1 ↔
        ∀ other ∈ before.records c.name, c.carries (.ofValue false id) other = false) ∧
      ∃ saved' again,
        ((createOne record fields).program c).run handle after = (.ok shown, again) ∧
        again.records = Function.update after.records c.name (front ++ saved' :: behind) ∧
        saved'.Perm saved := by
  have hsome : record ≠ [] := by
    rintro rfl
    cases hid
  have hkey := Identifier.ofRecord?_storedRecord hid
  obtain ⟨rfl, hsaved⟩ := savedUnder_of_run_createOne hfield hsome hkey hrun
  have hafter : after.idField = c.idField :=
    (idField_of_settings before hsaved.settings).trans hfield
  obtain ⟨front, behind, saved, hsaves, hfront, haccepts, hmissing, hperm⟩ :=
    saves_of_savedUnder hdot hkeyed hexact (Identifier.get?_storedRecord hid)
      (nodup_keys_storedRecord hrecord) hsaved
  have hrecords : after.records c.name = front ++ saved :: behind := by
    rw [hsaves.stored, Function.update_self]
  rw [← missingField?_congr before hsaved.settings] at hmissing
  rw [← patterns_of_settings before hsaved.settings] at hfront haccepts
  exact ⟨front, behind, saved, hsaves, hsaves.grows_iff, _, _,
    run_createOne_of_append hafter hsome hkey hrecords hfront haccepts hmissing fields,
    records_setRecords after c.name _, hperm⟩

/-- The record that is saved over has its identifier in another width, and keeps it. -/
theorem saves_of_wider_identifier :
    let c : Collection := ⟨"c", "_id"⟩
    let before : Memory.Store :=
      { collections := [("c", [[("_id", .string "x")], [("_id", .int32 1), ("k", .int32 2)]])],
        freshId := .ofNat }
    let after : Memory.Store :=
      { collections := [("c", [[("_id", .string "x")], [("_id", .int32 1), ("m", .int32 5)]])],
        freshId := .ofNat }
    let record : Document := [("m", .int32 5), ("id", .int64 1)]
    let shown : Document := [("m", .int32 5), ("_id", .int64 1)]
    '.' ∉ c.idField.toList ∧ before.idField = c.idField ∧
    ExactlyKeyed c.idField (before.records c.name) ∧ (Fields.keys record).Nodup ∧
    (Fields.get? c.idField record).or (Fields.get? Identifier.aliasField record) =
      some (.int64 1) ∧
    ((createOne record default).program c).run handle before = (.ok shown, after) ∧
    ∃ front behind saved,
      c.Saves (.external (.int64 1)) (Identifier.storedRecord c.idField record) before after front
        behind saved ∧
      ((after.records c.name).length = (before.records c.name).length + 1 ↔
        ∀ other ∈ before.records c.name, c.carries (.external (.int64 1)) other = false) ∧
      ∃ saved' again,
        ((createOne record default).program c).run handle after = (.ok shown, again) ∧
        again.records = Function.update after.records c.name (front ++ saved' :: behind) ∧
        saved'.Perm saved := by
  refine ⟨?dot, rfl, ?keyed, ?keys, rfl, ?created,
    saves_of_createOne ?dot rfl ?keyed ?keys rfl rfl ?created⟩
  case dot => decide
  case keys => decide
  case created => rfl
  case keyed =>
    constructor
    · intro stored hstored
      rcases List.mem_pair.1 hstored with rfl | rfl <;> rfl
    · decide

end Request

end Collection

end DocumentStore
