import DocumentStore.Proofs.Collection.BatchCreation
import DocumentStore.Proofs.Collection.Failures
import DocumentStore.Proofs.Collection.Saving

/-!
# Reading a creation back

The identifier that a creation answers with addresses the record that it has written, as long as a
lookup takes it for an identifier and the store for equal to itself.  A record that was saved over
keeps its identifier, so only a new record is read back just as it was answered.
-/

namespace DocumentStore

open Backend Program Memory Memory.Store

namespace Collection

variable {c : Collection}

/-- What is read under the identifier of a new record is the answer to its creation.  Where the
identifier addressed a record before, the first such record keeps its own identifier, with the
other fields of the answer in whatever order. -/
def ReadsBack (c : Collection) (before : Memory.Store) (id : Value) (shown read : Document) :
    Prop :=
  match (before.records c.name).find? ((c.keyIs (.ofValue false id)).accepts before.patterns) with
  | none => read = shown
  | some previous =>
    ∃ old rest, Fields.get? c.idField previous = some old ∧ shown.Splits c.idField id rest ∧
      read.Splits c.idField (Identifier.shownValue old) rest

/-! ## Records with a generated identifier -/

section Generated

variable {record : Document} (hrecord : (Fields.keys record).Nodup)
    (hnone : (Fields.get? c.idField record).or (Fields.get? Identifier.aliasField record) = none)

include hrecord hnone

theorem identify_of_none (freshId : Nat → ObjectId) (issued : Nat) :
    (c.identify freshId issued record).1 = (c.idField, .objectId (freshId issued)) :: record := by
  have hfield := (Option.or_eq_none_iff.1 hnone).1
  have habsent : ¬ Fields.contains c.idField record = true := by simp [Fields.contains, hfield]
  have hfront : Fields.insertAll [(c.idField, .objectId (freshId issued))] record =
      (c.idField, .objectId (freshId issued)) :: record := by
    refine Fields.insertAll_of_new hrecord fun field hmem other hother => ?_
    rw [List.mem_singleton.1 hother]
    exact (Fields.ne_of_get?_eq_none hfield hmem).symm
  simp only [identify, Identifier.storedRecord_of_none hnone, if_neg habsent, hfront]

theorem of_run_createOne_of_none {before after : Memory.Store}
    (hfield : before.idField = c.idField) {fields : FieldChoice} {shown : Document}
    (hrun : ((Request.createOne record fields).program c).run handle before = (.ok shown, after)) :
    shown = c.shown (c.projection fields)
        ((c.idField, .objectId (before.freshId before.issued)) :: record) ∧
      after.records c.name = before.records c.name ++
        [(c.idField, .objectId (before.freshId before.issued)) :: record] := by
  have hunread : Identifier.ofRecord? c.idField (Identifier.storedRecord c.idField record) =
      none := by
    rw [Identifier.storedRecord_of_none hnone, Identifier.ofRecord?, hnone]
    rfl
  obtain ⟨_, -, hcreate⟩ := run_lift_bind_eq_ok hrun
  simp only [hunread] at hcreate
  obtain ⟨assigned, middle, hassign, hinsert⟩ := exists_of_run_bind_eq_ok hcreate
  rw [run_assignId, Identifier.storedRecord_of_none hnone, identify_of_none hrecord hnone,
    Prod.mk.injEq, Except.ok.injEq] at hassign
  obtain ⟨rfl, hmiddle⟩ := hassign
  obtain ⟨statuses, next, hperform, hanswer⟩ := exists_of_run_bind_eq_ok hinsert
  have hcall := run_perform_insert c hperform
  rw [insert_singleton, Prod.mk.injEq] at hcall
  have hid : Fields.contains (middle.ensureCollection c.name).idField
      ((c.idField, .objectId (before.freshId before.issued)) :: record) = true := by
    rw [idField_ensureCollection, ← hmiddle, hfield, Fields.contains, Fields.get?_cons, if_pos rfl]
    rfl
  by_cases hadmits : (middle.ensureCollection c.name).Admits c.name
      ((middle.ensureCollection c.name).records c.name)
      ((c.idField, .objectId (before.freshId before.issued)) :: record)
  · rw [insertOne_of_admits hid hadmits] at hcall
    obtain ⟨rfl, rfl⟩ := hcall
    obtain ⟨hshown, rfl⟩ := Prod.mk.inj hanswer
    refine ⟨(Except.ok.inj hshown).symm, ?_⟩
    rw [records_setRecords_self, records_ensureCollection, ← hmiddle]
    rfl
  · obtain ⟨text, hfailed⟩ := exists_insertOne_of_not_admits hid hadmits
    rw [hfailed] at hcall
    obtain ⟨rfl, -⟩ := hcall
    cases hanswer

end Generated

/-! ## The reading -/

theorem run_retrieveAt_of_last {id : Value} {key : Identifier} (hid : readId id = .ok key)
    {store : Memory.Store} {records : List Document} {body : Document}
    (hrecords : store.records c.name = records ++ [body])
    (hnone : ∀ other ∈ records, (c.keyIs key).accepts store.patterns other = false)
    (hbody : (c.keyIs key).accepts store.patterns body = true) (fields : FieldChoice) :
    ((Request.retrieveAt id fields).program c).run handle store =
      (.ok (c.shown (c.projection fields) body), store) := by
  refine run_retrieveAt_of_find? hid ?_ fields
  rw [hrecords]
  exact find?_append hnone hbody

theorem readsBack_of_none {before : Memory.Store} {id : Value} {key : Identifier}
    (hkey : Identifier.ofValue false id = key)
    (hnone : ∀ other ∈ before.records c.name, (c.keyIs key).accepts before.patterns other = false)
    (shown : Document) : c.ReadsBack before id shown shown := by
  have hfind : (before.records c.name).find? ((c.keyIs key).accepts before.patterns) = none :=
    List.find?_eq_none.2 fun other hother => by simp [hnone other hother]
  rw [ReadsBack, hkey, hfind]

theorem accepts_of_equal_shown (hdot : '.' ∉ c.idField.toList) {reader : PatternReader}
    {key : Identifier} {body : Document} (hbody : Fields.get? c.idField body = some key.stored)
    (hself : key.shown.comparand.equal key.shown.comparand = true) :
    (c.keyIs key).accepts reader body = true := by
  rw [accepts_keyIs hdot, hbody]
  apply foundEqual_of_equal
  cases key with
  | native id => simp [Identifier.stored, Value.comparand, Comparand.equal]
  | external value => exact hself

theorem readId_of_not_blank {id : Value} (h : isBlankId id = false) :
    readId id = .ok (.ofValue false id) := by
  rw [readId, if_neg (Bool.eq_false_iff.1 h)]

theorem isBlankId_shown_native (id : ObjectId) :
    isBlankId (Identifier.native id).shown = false := by
  by_contra hblank
  have hnone := ObjectId.ofHex?_of_blank (Bool.not_eq_false _ ▸ hblank)
  rw [ObjectId.toHex, String.toList_ofList, id.ofHex?_hexDigits] at hnone
  cases hnone

/-! ## Requests -/

namespace Request

section

variable (hdot : '.' ∉ c.idField.toList) {before after : Memory.Store}
    (hfield : before.idField = c.idField) {record : Document}
    (hrecord : (Fields.keys record).Nodup) {fields : FieldChoice} {shown : Document}
    (hrun : ((createOne record fields).program c).run handle before = (.ok shown, after))

include hdot hfield hrecord hrun

theorem readsBack_of_generated
    (hnone : (Fields.get? c.idField record).or (Fields.get? Identifier.aliasField record) = none) :
    ∃ id, Fields.get? c.idField shown = some id ∧
      ((∀ stored ∈ before.records c.name,
          (c.keyIs (.ofValue false id)).accepts before.patterns stored = false) →
        ∃ read, ((retrieveAt id fields).program c).run handle after = (.ok read, after) ∧
          c.ReadsBack before id shown read) := by
  obtain ⟨rfl, hafter⟩ := of_run_createOne_of_none hrecord hnone hfield hrun
  let generated := before.freshId before.issued
  have hsplits : Document.Splits c.idField ((c.idField, .objectId generated) :: record)
      (.objectId generated) record :=
    ⟨.refl _, fun _ hmem => Fields.ne_of_get?_eq_none (Option.or_eq_none_iff.1 hnone).1 hmem⟩
  have hkey := Identifier.ofValue_shown_native generated
  refine ⟨(Identifier.native generated).shown, (splits_shown hdot fields hsplits).get?,
    fun hnew => ?_⟩
  rw [hkey] at hnew
  have hread := readId_of_not_blank (isBlankId_shown_native generated)
  rw [hkey] at hread
  have haccepts : (c.keyIs (.native generated)).accepts after.patterns
      ((c.idField, .objectId generated) :: record) = true :=
    accepts_of_equal_shown hdot hsplits.get? (by simp [Identifier.shown, Value.comparand,
      Comparand.equal])
  exact ⟨_, run_retrieveAt_of_last hread hafter hnew haccepts fields,
    readsBack_of_none hkey hnew _⟩

theorem readsBack_of_given
    (hids : ∀ stored ∈ before.records c.name, Fields.contains c.idField stored = true)
    {value : Value}
    (hvalue : (Fields.get? c.idField record).or (Fields.get? Identifier.aliasField record) =
      some value) :
    ∃ id, Fields.get? c.idField shown = some id ∧
      (isBlankId id = false → id.comparand.equal id.comparand = true →
        ∃ read, ((retrieveAt id fields).program c).run handle after = (.ok read, after) ∧
          c.ReadsBack before id shown read) := by
  have hsome : record ≠ [] := by
    rintro rfl
    cases hvalue
  obtain ⟨rfl, hsaved⟩ := savedUnder_of_run_createOne hfield hsome
    (Identifier.ofRecord?_storedRecord hvalue) hrun
  have hbody : (Fields.keys (Identifier.storedRecord c.idField record)).Nodup :=
    nodup_keys_storedRecord hrecord
  have hget := Identifier.get?_storedRecord hvalue
  have hsplits := splits_shown hdot fields
    (Fields.insert_of_get? hget ▸ Document.splits_insert hbody c.idField _)
  rw [Identifier.shownValue_stored] at hsplits
  have hkey := Identifier.ofValue_shown value
  refine ⟨(Identifier.ofValue false value).shown, hsplits.get?, fun hblank hself => ?_⟩
  have hread := readId_of_not_blank hblank
  rw [hkey] at hread
  cases hsaved with
  | @inPlace front behind previous hrecords hfront hprevious hmissing =>
      obtain ⟨old, hold⟩ := Option.isSome_iff_exists.1 (hids previous (by rw [hrecords]; simp))
      -- the identifier in the answer need not be the one that is kept, but it found this record
      have hsame := get?_replaced c.idField previous (Identifier.storedRecord c.idField record)
      let saved := replaced c.idField previous (Identifier.storedRecord c.idField record)
      refine ⟨c.shown (c.projection fields) saved, run_retrieveAt_of_find? hread ?_ fields, ?_⟩
      · rw [records_setRecords_self]
        exact find?_append hfront ((accepts_keyIs_congr hdot hsame).trans hprevious)
      · rw [ReadsBack, hkey, hrecords, find?_append hfront hprevious]
        exact ⟨old, _, hold, hsplits, splits_shown hdot fields (splits_replaced hold hbody)⟩
  | behindAll hnone hmissing =>
      exact ⟨_, run_retrieveAt_of_last hread (records_setRecords_self before c.name _) hnone
        (accepts_of_equal_shown hdot hget hself) fields, readsBack_of_none hkey hnone _⟩

end

/-- What a creation answers with is read back under the identifier in it, unless this is no
identifier to a lookup or does not equal itself.  A generated identifier has to be new. -/
theorem readsBack_of_createOne {c : Collection} (hdot : '.' ∉ c.idField.toList)
    {before : Memory.Store} (hfield : before.idField = c.idField)
    (hids : ∀ stored ∈ before.records c.name, Fields.contains c.idField stored = true)
    {record : Document} (hrecord : (Fields.keys record).Nodup) {fields : FieldChoice}
    {shown : Document} {after : Memory.Store}
    (hrun : ((createOne record fields).program c).run handle before = (.ok shown, after)) :
    Fields.contains c.idField shown = true ∧
    ∀ id, Fields.get? c.idField shown = some id → isBlankId id = false →
      id.comparand.equal id.comparand = true →
      ((Fields.get? c.idField record).or (Fields.get? Identifier.aliasField record) = none →
        ∀ stored ∈ before.records c.name,
          (c.keyIs (.ofValue false id)).accepts before.patterns stored = false) →
      ∃ read, ((retrieveAt id fields).program c).run handle after = (.ok read, after) ∧
        c.ReadsBack before id shown read := by
  cases hvalue : (Fields.get? c.idField record).or (Fields.get? Identifier.aliasField record) with
  | none =>
      obtain ⟨id, hid, hreads⟩ := readsBack_of_generated hdot hfield hrecord hrun hvalue
      refine ⟨by rw [Fields.contains, hid]; rfl, fun other hother _ _ hnew => ?_⟩
      cases hid.symm.trans hother
      exact hreads (hnew rfl)
  | some value =>
      obtain ⟨id, hid, hreads⟩ := readsBack_of_given hdot hfield hrecord hrun hids hvalue
      refine ⟨by rw [Fields.contains, hid]; rfl, fun other hother hblank hself _ => ?_⟩
      cases hid.symm.trans hother
      exact hreads hblank hself

/-- The first record is saved over one that has its identifier in another width, and the second
one gets an identifier. -/
theorem readsBack_of_two_records :
    let c : Collection := ⟨"c", "_id"⟩
    let before : Memory.Store :=
      { collections := [("c", [[("_id", .int64 1), ("k", .int32 2)]])], freshId := .ofNat }
    let saved : Memory.Store :=
      { collections := [("c", [[("_id", .int64 1), ("a", .int32 2)]])], freshId := .ofNat }
    let added : Memory.Store :=
      { collections := [("c", [[("_id", .int64 1), ("k", .int32 2)],
          [("_id", .objectId (.ofNat 0)), ("a", .int32 2)]])],
        freshId := .ofNat, issued := 1 }
    let generated : Value := .string (ObjectId.ofNat 0).toHex
    '.' ∉ c.idField.toList ∧ before.idField = c.idField ∧
    (∀ stored ∈ before.records c.name, Fields.contains c.idField stored = true) ∧
    ((createOne [("a", .int32 2), ("id", .int32 1)] default).program c).run handle before =
      (.ok [("a", .int32 2), ("_id", .int32 1)], saved) ∧
    (∃ read, ((retrieveAt (.int32 1) default).program c).run handle saved = (.ok read, saved) ∧
      c.ReadsBack before (.int32 1) [("a", .int32 2), ("_id", .int32 1)] read) ∧
    ((createOne [("a", .int32 2)] default).program c).run handle before =
      (.ok [("_id", generated), ("a", .int32 2)], added) ∧
    (∀ stored ∈ before.records c.name,
      (c.keyIs (.ofValue false generated)).accepts before.patterns stored = false) ∧
    ∃ read, ((retrieveAt generated default).program c).run handle added = (.ok read, added) ∧
      c.ReadsBack before generated [("_id", generated), ("a", .int32 2)] read := by
  refine ⟨?dot, rfl, ?ids, ?given,
    (readsBack_of_createOne ?dot rfl ?ids ?keys ?given).2 (.int32 1) rfl rfl ?self nofun,
    ?created, ?new,
    (readsBack_of_createOne ?dot rfl ?ids ?keys' ?created).2 _ rfl ?blank ?self' fun _ => ?new⟩
  case dot | ids | keys | keys' | self | self' | new | blank => decide
  case given | created => rfl

/-- A record that is saved over keeps the kind of number that its identifier is.  Null, blank text
and a NaN are created as identifiers and address nothing, and neither does a generated identifier
that an older record holds in an array. -/
theorem creations_not_read_back :
    let c : Collection := ⟨"c", "_id"⟩
    let star : FieldChoice := .delimited "*"
    let holding (ids : List Value) : Memory.Store :=
      { collections := [("c", ids.map fun id => [("_id", id)])], freshId := .ofNat }
    (∃ shown read after,
      ((createOne [("_id", .int32 1), ("a", .int32 2)] star).program c).run handle
        (holding [.int64 1]) = (.ok shown, after) ∧
      Fields.get? c.idField shown = some (.int32 1) ∧
      ((retrieveAt (.int32 1) star).program c).run handle after = (.ok read, after) ∧
      ¬ read.Perm shown) ∧
    (∀ id ∈ [Value.null, .string " ", .double Binary64.nan], ∃ shown after failure,
      ((createOne [("_id", id), ("a", .int32 2)] star).program c).run handle (holding []) =
        (.ok shown, after) ∧
      Fields.get? c.idField shown = some id ∧
      ((retrieveAt id star).program c).run handle after = (.error failure, after)) ∧
    ∃ id shown read after,
      ((createOne [("a", .int32 2)] star).program c).run handle
        (holding [.array [.objectId (.ofNat 0)]]) = (.ok shown, after) ∧
      Fields.get? c.idField shown = some id ∧
      ((retrieveAt id star).program c).run handle after = (.ok read, after) ∧
      ¬ read.Perm shown := by
  refine ⟨⟨[("_id", .int32 1), ("a", .int32 2)], [("_id", .int64 1), ("a", .int32 2)], _,
      rfl, rfl, rfl, fun hperm => ?width⟩, ?unread,
    ⟨_, [("_id", .string (ObjectId.ofNat 0).toHex), ("a", .int32 2)],
      [("_id", .array [.objectId (.ofNat 0)])], _, rfl, rfl, rfl, fun hperm => ?array⟩⟩
  case width =>
    rcases List.mem_pair.1 (hperm.subset List.mem_cons_self) with hsame | hsame <;> simp at hsame
  case array => cases hperm.length_eq
  case unread =>
    intro id hid
    simp only [List.mem_cons, List.not_mem_nil, or_false] at hid
    rcases hid with rfl | rfl | rfl <;> exact ⟨_, _, _, rfl, rfl, rfl⟩

end Request

end Collection

end DocumentStore
