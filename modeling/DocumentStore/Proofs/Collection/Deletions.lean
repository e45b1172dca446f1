import DocumentStore.Proofs.Collection.Keys
import DocumentStore.Proofs.Collection.Requests
import DocumentStore.Proofs.Memory.Answers
import DocumentStore.Proofs.Projection
import DocumentStore.Proofs.Value.Keys
import Mathlib.Data.Finset.Card
import Mathlib.Data.List.FinRange

/-!
# Reports of deletions by identifiers

A deletion by a list of identifiers takes out what the filter accepts, and reports for each
identifier the first record read that carries it.  The two agree where every identifier that the
filter finds in a record is recognized there, and in no other record that it finds.
-/

namespace DocumentStore.Collection

open Backend Program Memory.Store

variable (c : Collection) (projection : Projection)

def recognizes (id : Identifier) (record : Document) : Bool :=
  pair.hasId c id.stored (projection.project record)

/-- Among the records found, those that an identifier addresses are recognized by it, and none
but one. -/
structure Identifies (patterns : PatternReader) (ids : List Identifier)
    (found : List Document) : Prop where
  recognized : ∀ id ∈ ids, ∀ record ∈ found, (c.keyIs id).accepts patterns record = true →
    c.recognizes projection id record = true
  alone : ∀ id ∈ ids, found.Pairwise fun first second =>
    ¬ (c.recognizes projection id first = true ∧ c.recognizes projection id second = true)

/-! ## Places -/

/-- The records at the places that stand for none of the identifiers. -/
def unreported {records : List Document} (place : Identifier → Option (Fin records.length))
    (ids : List Identifier) : List Document :=
  ((List.finRange records.length).filter fun i => ids.all (place · ≠ some i)).map records.get

theorem length_unreported {records : List Document}
    (place : Identifier → Option (Fin records.length)) (ids : List Identifier) :
    (unreported place ids).length + (ids.filterMap place).toFinset.card = records.length := by
  let kept (i : Fin records.length) : Bool := ids.all (place · ≠ some i)
  have hplaces : (ids.filterMap place).toFinset =
      ((List.finRange records.length).filter (!kept ·)).toFinset := by
    ext i
    simp [kept, List.mem_filterMap]
  have hcard : (ids.filterMap place).toFinset.card =
      ((List.finRange records.length).filter (!kept ·)).length := by
    rw [hplaces]
    exact List.toFinset_card_of_nodup ((List.nodup_finRange _).filter _)
  have hsplit := List.length_eq_length_filter_add (l := List.finRange records.length) kept
  rw [List.length_finRange] at hsplit
  rw [unreported, List.length_map, hcard]
  exact hsplit.symm

theorem length_found_of_unreported {records : List Document}
    {place : Identifier → Option (Fin records.length)} {ids : List Identifier}
    {accepts : Document → Bool}
    (h : unreported place ids = records.filter (!accepts ·)) :
    (records.filter accepts).length = (ids.filterMap place).toFinset.card := by
  have hcount := length_unreported place ids
  have hsplit := List.length_eq_length_filter_add (l := records) accepts
  rw [h] at hcount
  omega

def outcomeOf (id : Identifier) : Option Document → Outcome
  | some record => .record (c.shown projection record)
  | none => .failed (c.notFound id)

/-- Every identifier stands for one place of the collection, whose record carries it, or for
none.  The outcomes and the records that are left are those of these places, and an identifier
that stands for none addresses no record. -/
structure FaithfulDeletion (ids : List Identifier) (before after : Memory.Store)
    (outcomes : List Outcome)
    (place : Identifier → Option (Fin (before.records c.name).length)) : Prop where
  reported : outcomes = ids.map fun id =>
    c.outcomeOf projection id ((place id).map (before.records c.name).get)
  carries : ∀ id ∈ ids, ∀ i, place id = some i →
    c.recognizes projection id ((before.records c.name).get i) = true
  left : after.records = Function.update before.records c.name (unreported place ids)
  missing : ∀ id ∈ ids, place id = none → ∀ record ∈ before.records c.name,
    (c.keyIs id).accepts before.patterns record = false

/-! ## What is read and what is taken out -/

variable {c projection} {patterns : PatternReader}

theorem pair_map_project (found : List Document) (id : Identifier) :
    c.pair projection (found.map projection.project) id =
      c.outcomeOf projection id (found.find? (c.recognizes projection id)) := by
  have hfind : (found.map projection.project).find? (pair.hasId c id.stored) =
      (found.find? (c.recognizes projection id)).map projection.project := List.find?_map
  rw [pair, hfind]
  cases found.find? (c.recognizes projection id) with
  | none => rfl
  | some record => simp [outcomeOf]

theorem run_lookUpListed (operation : Operation) (projection : Projection)
    (ids : List Identifier) (store : Memory.Store) :
    (c.lookUpListed operation projection ids).run handle store =
      (.ok (ids.map fun id => c.outcomeOf projection id
        (((store.records c.name).filter ((c.keyIn ids).accepts store.patterns)).find?
          (c.recognizes projection id))), store) := by
  have htotal : ∀ record ∈ store.records c.name, 
      ∃ hit, (c.keyIn ids).evaluate store.patterns record = .ok hit :=
    fun _ _ => ⟨_, rfl⟩
  have hfind := find_unsorted_of_total htotal (show ({ projection } : Selection).sort = [] from rfl)
  rw [cut_projection] at hfind
  rw [lookUpListed, run_bind, run_perform, handle, hfind]
  change (Except.ok (ids.map _), store) = _
  congr 2
  exact List.map_congr_left fun id _ => pair_map_project _ id

theorem run_outcomesOf (hfields : projection.keepsOnly c.idField = false) (operation : Operation)
    (ids : List Identifier) (store : Memory.Store) :
    (c.outcomesOf operation projection ids).run handle store =
      (.ok (ids.map fun id => c.outcomeOf projection id
        (((store.records c.name).filter ((c.keyIn ids).accepts store.patterns)).find?
          (c.recognizes projection id))), store) := by
  rw [outcomesOf, hfields]
  exact run_lookUpListed operation projection ids store

theorem of_run_removeListed {ids : List Identifier} {before after : Memory.Store}
    {outcomes : List Outcome} (hfields : projection.keepsOnly c.idField = false)
    (hrun : (c.removeListed projection ids).run handle before = (.ok outcomes, after)) :
    (outcomes = ids.map fun id => c.outcomeOf projection id
      (((before.records c.name).filter ((c.keyIn ids).accepts before.patterns)).find?
        (c.recognizes projection id))) ∧
    after.records = Function.update before.records c.name
      ((before.records c.name).filter (!(c.keyIn ids).accepts before.patterns ·)) := by
  obtain ⟨read, middle, hread, hrest⟩ := exists_of_run_bind_eq_ok hrun
  obtain ⟨count, last, hdelete, hlast⟩ := exists_of_run_bind_eq_ok hrest
  have hresult : read = outcomes ∧ last = after := by
    simpa [Prod.mk.injEq] using hlast
  obtain ⟨rfl, rfl⟩ := hresult
  rw [run_outcomesOf hfields] at hread
  obtain ⟨houtcomes, rfl⟩ := Prod.mk.inj hread
  exact ⟨(Except.ok.inj houtcomes).symm, records_delete_of_ok (handle_of_run_perform_eq_ok hdelete)⟩

/-! ## Faithful reports -/

/-- The place of the first record found that is recognized. -/
def placeOf (c : Collection) (projection : Projection)
    (patterns : PatternReader) (ids : List Identifier)
    (records : List Document) (id : Identifier) : Option (Fin records.length) :=
  records.findFinIdx? fun record =>
    (c.keyIn ids).accepts patterns record && c.recognizes projection id record

theorem map_get_placeOf (ids : List Identifier) (records : List Document) (id : Identifier) :
    (c.placeOf projection patterns ids records id).map records.get =
      (records.filter ((c.keyIn ids).accepts patterns)).find? (c.recognizes projection id) := by
  rw [List.find?_filter, List.find?_eq_map_findFinIdx?_getElem, placeOf]
  simp only [Bool.decide_and, Bool.decide_eq_true]
  rfl

/-- A record that an identifier addresses, where it is recognized and alone, has the place
that the identifier stands for. -/
theorem placeOf_of_accepts {ids : List Identifier} {records : List Document} {id : Identifier}
    (h : c.Identifies projection patterns ids (records.filter ((c.keyIn ids).accepts patterns)))
    (hid : id ∈ ids)
    {i : Fin records.length} (haccepts : (c.keyIs id).accepts patterns (records.get i) = true) :
    c.placeOf projection patterns ids records id = some i := by
  have hfound : (c.keyIn ids).accepts patterns (records.get i) = true := by
    rw [accepts_keyIn]
    exact List.any_eq_true.2 ⟨id, hid, haccepts⟩
  have hmem : records.get i ∈ records.filter ((c.keyIn ids).accepts patterns) :=
    List.mem_filter.2 ⟨List.get_mem _ _, hfound⟩
  have hhere := h.recognized id hid _ hmem haccepts
  have halone := List.pairwise_iff_getElem.1 (List.pairwise_filter.1 (h.alone id hid))
  refine List.findFinIdx?_eq_some_iff.2 ⟨Bool.and_eq_true_iff.2 ⟨hfound, hhere⟩, ?_⟩
  -- An earlier record that is recognized as well would not be alone with this one.
  intro j hji hj
  obtain ⟨hfirst, hrecognized⟩ := Bool.and_eq_true_iff.1 hj
  exact halone j i j.2 i.2 hji hfirst hfound ⟨hrecognized, hhere⟩

theorem unreported_placeOf {ids : List Identifier} {records : List Document}
    (h : c.Identifies projection patterns ids (records.filter ((c.keyIn ids).accepts patterns))) :
    unreported (c.placeOf projection patterns ids records) ids =
      records.filter (!(c.keyIn ids).accepts patterns ·) := by
  have hplace (i : Fin records.length) :
      (c.keyIn ids).accepts patterns (records.get i) = true ↔
        ∃ id ∈ ids, c.placeOf projection patterns ids records id = some i := by
    constructor
    · intro hfound
      rw [accepts_keyIn] at hfound
      obtain ⟨id, hid, haccepts⟩ := List.any_eq_true.1 hfound
      exact ⟨id, hid, placeOf_of_accepts h hid haccepts⟩
    · rintro ⟨id, -, hplace⟩
      exact (Bool.and_eq_true_iff.1 (List.findFinIdx?_eq_some_iff.1 hplace).1).1
  have hkept (i : Fin records.length) :
      (ids.all (c.placeOf projection patterns ids records · ≠ some i)) =
        !(c.keyIn ids).accepts patterns (records.get i) := by
    rw [Bool.eq_iff_iff, Bool.not_eq_true', ← Bool.not_eq_true, hplace]
    simp
  calc unreported (c.placeOf projection patterns ids records) ids
      = ((List.finRange records.length).filter
          fun i => !(c.keyIn ids).accepts patterns (records.get i)).map records.get := by
        rw [unreported, funext hkept]
    _ = ((List.finRange records.length).map records.get).filter
          (!(c.keyIn ids).accepts patterns ·) := by
        rw [List.filter_map]
        rfl
    _ = records.filter (!(c.keyIn ids).accepts patterns ·) := by rw [List.map_get_finRange]

theorem faithfulDeletion_of_identifies {ids : List Identifier} {before after : Memory.Store}
    {outcomes : List Outcome}
    (h : c.Identifies projection before.patterns ids
      ((before.records c.name).filter ((c.keyIn ids).accepts before.patterns)))
    (houtcomes : outcomes = ids.map fun id => c.outcomeOf projection id
      (((before.records c.name).filter ((c.keyIn ids).accepts before.patterns)).find?
        (c.recognizes projection id)))
    (hafter : after.records = Function.update before.records c.name
      ((before.records c.name).filter (!(c.keyIn ids).accepts before.patterns ·))) :
    c.FaithfulDeletion projection ids before after outcomes
      (c.placeOf projection before.patterns ids (before.records c.name)) where
  reported := by simp only [houtcomes, map_get_placeOf]
  carries id _ i hplace := by
    have hhere := (List.findFinIdx?_eq_some_iff.1 hplace).1
    exact (Bool.and_eq_true_iff.1 hhere).2
  left := by rw [hafter, unreported_placeOf h]
  missing id hid hnone record hrecord := by
    by_contra haccepts
    obtain ⟨i, rfl⟩ := List.get_of_mem hrecord
    rw [placeOf_of_accepts h hid (Bool.not_eq_false _ ▸ haccepts)] at hnone
    cases hnone

/-- A report on one identifier that is faithful accounts for all that the filter finds. -/
theorem identifies_of_faithfulDeletion {id : Identifier} {before after : Memory.Store}
    {outcomes : List Outcome} {place : Identifier → Option (Fin (before.records c.name).length)}
    (h : c.FaithfulDeletion projection [id] before after outcomes place)
    (houtcomes : outcomes = [id].map fun id => c.outcomeOf projection id
      (((before.records c.name).filter ((c.keyIn [id]).accepts before.patterns)).find?
        (c.recognizes projection id)))
    (hafter : after.records = Function.update before.records c.name
      ((before.records c.name).filter (!(c.keyIn [id]).accepts before.patterns ·))) :
    c.Identifies projection before.patterns [id]
      ((before.records c.name).filter ((c.keyIn [id]).accepts before.patterns)) := by
  have hleft : unreported place [id] =
      (before.records c.name).filter (!(c.keyIn [id]).accepts before.patterns ·) := by
    have hname := congrFun (h.left.symm.trans hafter) c.name
    rwa [Function.update_self, Function.update_self] at hname
  have hfound := length_found_of_unreported hleft
  have houtcome := h.reported.symm.trans houtcomes
  simp only [List.map_cons, List.map_nil, List.cons.injEq, and_true] at houtcome
  cases hplace : place id with
  | none =>
      simp only [List.filterMap_cons, hplace, List.filterMap_nil, List.toFinset_nil,
        Finset.card_empty] at hfound
      rw [List.eq_nil_of_length_eq_zero hfound]
      exact ⟨nofun, fun _ _ => .nil⟩
  | some i =>
      -- One record is found, and the outcome shows that it is recognized.
      simp only [List.filterMap_cons, hplace, List.filterMap_nil, List.toFinset_cons,
        List.toFinset_nil, insert_empty_eq, Finset.card_singleton] at hfound
      obtain ⟨only, honly⟩ := List.length_eq_one_iff.1 hfound
      rw [honly] at houtcome ⊢
      refine ⟨fun other hother record hrecord _ => ?_, fun _ _ => List.pairwise_singleton _ _⟩
      rw [List.mem_singleton.1 hother, List.mem_singleton.1 hrecord]
      by_contra hnot
      rw [List.find?_cons_of_neg hnot, List.find?_nil, hplace] at houtcome
      cases houtcome

theorem recognizes_of_isKey (hdot : '.' ∉ c.idField.toList) {record : Document} {stored : Value}
    (hstored : Fields.get? c.idField record = some stored) (hkey : stored.IsKey)
    {id : Identifier} (haccepts : (c.keyIs id).accepts patterns record = true)
    (fields : FieldChoice) :
    c.recognizes (c.projection fields) id record = true := by
  have hscalar := Value.isScalar_of_isKey hkey
  rw [accepts_keyIs hdot, hstored, Value.foundEqual_of_isScalar hscalar] at haccepts
  rw [recognizes, pair.hasId, get?_project hdot, hstored]
  exact (Value.sameStored_eq_equal hscalar _).trans haccepts

/-! ## Requests -/

namespace Request

theorem of_run_deleteListed {ids : IdentifierList} {fields : FieldChoice}
    {before after : Memory.Store} {outcomes : List Outcome}
    (hrun : ((deleteListed ids fields).program c).run handle before = (.ok outcomes, after)) :
    (c.removeListed (c.projection fields) ids.identifiers).run handle before =
      (.ok outcomes, after) := by
  obtain ⟨read, hread, hrest⟩ := run_lift_bind_eq_ok hrun
  rw [← (readIds_eq_ok_iff.1 hread).2]
  exact hrest

/-- A deletion by identifiers that succeeds reports just the records that it takes out, each at
its place, when the identifiers are recognized wherever the filter finds them and in one record
only.  For a single identifier the report is faithful in no other case. -/
theorem report_of_deleteListed {c : Collection} {ids : IdentifierList} {fields : FieldChoice}
    (hfields : (c.projection fields).keepsOnly c.idField = false)
    {before after : Memory.Store} {outcomes : List Outcome}
    (hrun : ((deleteListed ids fields).program c).run handle before = (.ok outcomes, after)) :
    (c.Identifies (c.projection fields) before.patterns ids.identifiers
        ((before.records c.name).filter ((c.keyIn ids.identifiers).accepts before.patterns)) →
      ∃ place,
        c.FaithfulDeletion (c.projection fields) ids.identifiers before after outcomes place ∧
        (after.records c.name).length + (ids.identifiers.filterMap place).toFinset.card =
          (before.records c.name).length) ∧
    ∀ id place, ids.identifiers = [id] →
      c.FaithfulDeletion (c.projection fields) ids.identifiers before after outcomes place →
        c.Identifies (c.projection fields) before.patterns ids.identifiers
          ((before.records c.name).filter ((c.keyIn ids.identifiers).accepts before.patterns)) := by
  obtain ⟨houtcomes, hafter⟩ := of_run_removeListed hfields (of_run_deleteListed hrun)
  constructor
  · intro hidentifies
    have hfaithful := faithfulDeletion_of_identifies hidentifies houtcomes hafter
    refine ⟨_, hfaithful, ?_⟩
    rw [hfaithful.left, Function.update_self]
    exact length_unreported _ _
  · intro id place hone hfaithful
    rw [hone] at hfaithful houtcomes hafter ⊢
    exact identifies_of_faithfulDeletion hfaithful houtcomes hafter

/-- The wider integer 1 takes out and reports the record of the narrower one. -/
theorem report_of_wider_identifier :
    let c : Collection := ⟨"c", "_id"⟩
    let ids : IdentifierList := .values [.int64 1, .string "x"]
    let before : Memory.Store :=
      { collections := [("c", [[("_id", .int32 1)], [("_id", .int64 2)]])], freshId := .ofNat }
    let after : Memory.Store := { before with collections := [("c", [[("_id", .int64 2)]])] }
    let outcomes : List Outcome :=
      [.record [("_id", .int32 1)], .failed (.notFound "x" "c")]
    (c.projection default).keepsOnly "_id" = false ∧
    ((deleteListed ids default).program c).run handle before = (.ok outcomes, after) ∧
    ∃ place,
      c.FaithfulDeletion (c.projection default) ids.identifiers before after outcomes place ∧
      (after.records "c").length + (ids.identifiers.filterMap place).toFinset.card =
        (before.records "c").length := by
  refine ⟨by decide, rfl, ?_⟩
  refine (report_of_deleteListed (by decide) rfl).1 ⟨?_, ?_⟩
  · intro id _ record hrecord haccepts
    have honly : record = [("_id", .int32 1)] := List.mem_singleton.1 hrecord
    rw [honly] at haccepts ⊢
    have hkey : (Value.int32 1).IsKey := trivial
    exact recognizes_of_isKey (by decide) rfl hkey haccepts default
  · exact fun _ _ => List.pairwise_singleton _ _

/-- All values without a comparison of their own are equal for the store, so one binary value
takes out the record of another, which is reported as missing. -/
theorem report_of_other_binary :
    let c : Collection := ⟨"c", "_id"⟩
    let ids : IdentifierList := .values [.binary 0 [0xbb]]
    let before : Memory.Store :=
      { collections := [("c", [[("_id", .binary 0 [0xaa]), ("a", .int32 1)]])],
        freshId := .ofNat }
    let after : Memory.Store := { before with collections := [("c", [])] }
    let outcomes : List Outcome := [.failed (.notFound "Binary(0x0, uw==)" "c")]
    ((deleteListed ids default).program c).run handle before = (.ok outcomes, after) ∧
    ¬ ∃ place, c.FaithfulDeletion (c.projection default) ids.identifiers before after outcomes
      place := by
  refine ⟨rfl, ?_⟩
  rintro ⟨place, hfaithful⟩
  have hreported := hfaithful.reported
  have hmissing := hfaithful.missing (.external (.binary 0 [0xbb])) (List.mem_singleton_self _)
  cases hplace : place (.external (.binary 0 [0xbb])) with
  | none => exact absurd (hmissing hplace _ (List.mem_singleton_self _)) (by decide)
  | some i =>
      change _ = [outcomeOf _ _ _ ((place (.external (.binary 0 [0xbb]))).map _)] at hreported
      rw [hplace] at hreported
      cases hreported

end Request

end DocumentStore.Collection
