import DocumentStore.Proofs.Collection.Deletions
import DocumentStore.Proofs.Identifier.NormalForm
import Mathlib.Data.List.Find

/-!
# Readings by identifier

A reading of one identifier takes the first record that its filter accepts.  A reading of a list
filters once for all of them, and then looks for the first record that each recognizes.  Where
the identifiers, stored and asked for, are scalars, both take the first record that has the
identifier.
-/

namespace DocumentStore

open Backend Program Memory.Store

/-- The identifiers that records have in the field are scalars. -/
def ScalarIds (field : String) (records : List Document) : Prop :=
  ∀ record ∈ records, ∀ id, Fields.get? field record = some id → id.IsScalar

namespace Collection

variable {c : Collection} {reader : PatternReader} (hdot : '.' ∉ c.idField.toList)

/-! ## Records that have an identifier -/

section Scalars

variable {record : Document}
    (hstored : ∀ id, Fields.get? c.idField record = some id → id.IsScalar)

include hdot hstored

theorem accepts_keyIs_eq_hasId {id : Identifier} (hid : id.stored.IsScalar) :
    (c.keyIs id).accepts reader record = hasId c.idField id.stored record := by
  rw [accepts_keyIs hdot, hasId]
  cases hget : Fields.get? c.idField record with
  | none => exact Value.foundEqual_none_of_isScalar hid
  | some stored => exact Value.foundEqual_of_isScalar (hstored stored hget) id.stored

theorem recognizes_eq_hasId (fields : FieldChoice) (id : Identifier) :
    c.recognizes (c.projection fields) id record = hasId c.idField id.stored record := by
  rw [recognizes, pair.hasId, get?_project hdot, hasId]
  cases hget : Fields.get? c.idField record with
  | none => rfl
  | some stored => exact Value.sameStored_eq_equal (hstored stored hget) id.stored

end Scalars

section Lists

variable {records : List Document} (hstored : ScalarIds c.idField records)

include hdot hstored

theorem find?_keyIs {id : Identifier} (hid : id.stored.IsScalar) :
    records.find? ((c.keyIs id).accepts reader) = records.find? (hasId c.idField id.stored) :=
  List.find?_congr fun record hrecord => accepts_keyIs_eq_hasId hdot (hstored record hrecord) hid

theorem find?_recognizes {ids : List Identifier} (fields : FieldChoice) {id : Identifier}
    (hmem : id ∈ ids) :
    (records.filter ((c.keyIn ids).accepts reader)).find?
        (c.recognizes (c.projection fields) id) =
      records.find? (hasId c.idField id.stored) := by
  rw [List.find?_filter]
  apply List.find?_congr
  intro record hrecord
  rw [recognizes_eq_hasId hdot (hstored record hrecord)]
  cases hhas : hasId c.idField id.stored record with
  | false => simp
  | true =>
      have haccepts : (c.keyIs id).accepts reader record = true := by
        rw [accepts_keyIs hdot]
        rw [hasId] at hhas
        cases hget : Fields.get? c.idField record with
        | none => rw [hget] at hhas; cases hhas
        | some stored =>
            rw [hget] at hhas
            exact (Value.foundEqual_of_isScalar (hstored record hrecord stored hget) _).trans hhas
      have hfound : (c.keyIn ids).accepts reader record = true := by
        rw [accepts_keyIn, List.any_eq_true]
        exact ⟨id, hmem, haccepts⟩
      simp [hfound]

end Lists

/-! ## The reading of one identifier -/

theorem run_findStored (projection : Projection) (id : Identifier) (store : Memory.Store) :
    (c.findStored projection id).run handle store =
      (.ok (((store.records c.name).find? ((c.keyIs id).accepts store.patterns)).map
        (c.shown projection)), store) := by
  have htotal : ∀ record ∈ store.records c.name,
      ∃ hit, (c.keyIs id).evaluate store.patterns record = .ok hit :=
    fun _ _ => ⟨_, rfl⟩
  have hfind : store.find c.name (c.keyIs id) { projection, limit := some 1 } = _ :=
    find_unsorted_of_total htotal rfl
  rw [findStored, run_bind, run_perform, handle, hfind]
  change (Except.ok ((List.head? _).map (c.shown projection)), store) = _
  rw [head?_cut_one, List.head?_filter, Option.map_map]
  congr 3
  funext record
  exact shown_project projection record

/-! ## Requests -/

namespace Request

theorem isBlankId_stored {value : Value} (h : isBlankId value = false) :
    isBlankId (Identifier.ofValue false value).stored = false := by
  cases value with
  | string s =>
      change isBlankId (Identifier.ofText false s.toList).stored = false
      cases hs : ObjectId.ofHex? s.toList with
      | some id => rw [Identifier.ofText_eq_native hs]; rfl
      | none =>
          rw [Identifier.ofText_untyped hs, String.ofList_toList]
          exact h
  | _ => exact h

theorem isBlankId_stored_of_isBlankId {value : Value} (h : isBlankId value = true) :
    isBlankId (Identifier.ofValue false value).stored = true := by
  cases value with
  | string s =>
      have hnone : ObjectId.ofHex? s.toList = none := ObjectId.ofHex?_of_blank h
      change isBlankId (Identifier.ofText false s.toList).stored = true
      rw [Identifier.ofText_untyped hnone, String.ofList_toList]
      exact h
  | _ => exact h

theorem addressed_singleton {operation : Operation} {key : String}
    (hkey : key = c.idField ∨ key = Identifier.aliasField) {value : Value}
    (hvalue : isBlankId value = false) :
    c.addressed operation [(key, value)] =
      .ok (.ofValue false value, [(c.idField, (Identifier.ofValue false value).stored)]) := by
  simp [addressed, Identifier.storedRecord_singleton hkey, Fields.get?_cons,
    isBlankId_stored hvalue, Identifier.ofValue_stored]

theorem result_retrieveOne_singleton {key : String}
    (hkey : key = c.idField ∨ key = Identifier.aliasField) {value : Value}
    (hvalue : isBlankId value = false) (fields : FieldChoice) (store : Memory.Store) :
    .ofResult (((retrieveOne [(key, value)] fields).program c).run handle store).1 =
      c.outcomeOf (c.projection fields) (.ofValue false value)
        ((store.records c.name).find?
          ((c.keyIs (.ofValue false value)).accepts store.patterns)) := by
  rw [program, Collection.retrieveOne, addressed_singleton hkey hvalue]
  change Outcome.ofResult
    ((c.findStored (c.projection fields) (.ofValue false value) >>= _).run handle store).1 = _
  rw [run_bind, run_findStored]
  cases (store.records c.name).find? ((c.keyIs (.ofValue false value)).accepts store.patterns) with
  | none => rfl
  | some record => rfl

theorem run_retrieveListed_values {values : List Value} (hvalues : values ≠ [])
    (fields : FieldChoice) (store : Memory.Store) :
    ((retrieveListed (.values values) fields).program c).run handle store =
      (c.lookUpListed .retrieve (c.projection fields)
        (values.map (Identifier.ofValue false))).run handle store := by
  have hread : c.readIds .retrieve (.values values) =
      .ok (values.map (Identifier.ofValue false)) :=
    readIds_eq_ok_iff.2 ⟨by simpa [IdentifierList.identifiers] using hvalues, rfl⟩
  rw [program, Collection.retrieveListed, hread]
  rfl

theorem stored_ofValue_of_isScalar {value : Value} (h : value.IsScalar) :
    (Identifier.ofValue false value).stored.IsScalar := by
  cases value with
  | string s =>
      change (Identifier.ofText false s.toList).stored.IsScalar
      cases hs : ObjectId.ofHex? s.toList with
      | some id => rw [Identifier.ofText_eq_native hs]; trivial
      | none => rw [Identifier.ofText_untyped hs]; trivial
  | _ => exact h

/-- A reading of a list of identifiers has the outcomes that readings of each alone have, in
their order, and like these it leaves the store as it is. -/
theorem run_retrieveListed_eq_map_retrieveOne {c : Collection} (hdot : '.' ∉ c.idField.toList)
    {store : Memory.Store} (hstored : ScalarIds c.idField (store.records c.name))
    {values : List Value} (hvalues : values ≠ [])
    (hscalar : ∀ value ∈ values, value.IsScalar ∧ isBlankId value = false) {key : String}
    (hkey : key = c.idField ∨ key = Identifier.aliasField) (fields : FieldChoice) :
    ((retrieveListed (.values values) fields).program c).run handle store =
      (.ok (values.map fun value =>
        .ofResult (((retrieveOne [(key, value)] fields).program c).run handle store).1),
        store) := by
  rw [run_retrieveListed_values hvalues, run_lookUpListed, List.map_map]
  congr 2
  apply List.map_congr_left
  intro value hvalue
  obtain ⟨hkind, hblank⟩ := hscalar value hvalue
  have hid := stored_ofValue_of_isScalar hkind
  rw [result_retrieveOne_singleton hkey hblank, Function.comp_apply,
    find?_recognizes hdot hstored fields (List.mem_map_of_mem hvalue),
    find?_keyIs hdot hstored hid]

/-- The double is the nearest to the stored integer, which is therefore what both readings take,
and a NaN finds nothing in either. -/
theorem run_retrieveListed_of_nearest_double :
    let c : Collection := ⟨"c", "_id"⟩
    let double : Value := .double ⟨0x4340000000000000⟩
    let nan : Value := .double Binary64.nan
    let store : Memory.Store :=
      { collections := [("c", [[("_id", .int64 9007199254740993)], [("_id", double)],
          [("_id", nan)]])],
        freshId := .ofNat }
    let values : List Value := [double, .int64 9007199254740992, nan, .string "x", double]
    '.' ∉ c.idField.toList ∧ ScalarIds c.idField (store.records c.name) ∧ values ≠ [] ∧
    (∀ value ∈ values, value.IsScalar ∧ isBlankId value = false) ∧
    ((retrieveListed (.values values) default).program c).run handle store =
      (.ok (values.map fun value =>
        .ofResult (((retrieveOne [("id", value)] default).program c).run handle store).1),
        store) := by
  intro c double nan store values
  have hdot : '.' ∉ c.idField.toList := by decide
  have hstored : ScalarIds c.idField (store.records c.name) := by
    have hrecords : store.records c.name =
        [[("_id", .int64 9007199254740993)], [("_id", double)], [("_id", nan)]] := rfl
    rw [hrecords]
    intro record hrecord id hid
    simp only [List.mem_cons, List.not_mem_nil, or_false] at hrecord
    rcases hrecord with rfl | rfl | rfl <;> (cases hid; trivial)
  have hscalar : ∀ value ∈ values, value.IsScalar ∧ isBlankId value = false := by
    intro value hvalue
    simp only [values, List.mem_cons, List.not_mem_nil, or_false] at hvalue
    rcases hvalue with rfl | rfl | rfl | rfl | rfl <;> exact ⟨trivial, by decide⟩
  have hvalues : values ≠ [] := List.cons_ne_nil _ _
  exact ⟨hdot, hstored, hvalues, hscalar,
    run_retrieveListed_eq_map_retrieveOne hdot hstored hvalues hscalar (.inr rfl) default⟩

end Request

end Collection

end DocumentStore
