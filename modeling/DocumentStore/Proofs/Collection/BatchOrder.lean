import DocumentStore.Proofs.Backend.Orders
import DocumentStore.Proofs.Collection.ListedChanges
import DocumentStore.Proofs.Collection.SingleChanges

/-!
# Batches of changes in any order

A batch is changed by one call for each of its records.  Where the identifiers of a batch are
different and all are compared exactly, no call touches the record of another one, so the calls
may be answered in any order.
-/

namespace DocumentStore

open Backend Program Memory Memory.Store

/-- No key of a patch is the field.  A dotted key may lead into it. -/
def Change.Avoids (field : String) : Change → Prop
  | .replace _ => True
  | .merge patch => ∀ entry ∈ patch, entry.1 ≠ field

namespace Collection

variable {c : Collection}

/-! ## Records that an exact identifier finds by its content -/

/-- The record has an identifier that is compared exactly, or a document in its place. -/
def Addressable (c : Collection) (record : Document) : Prop :=
  (record.exactKey? c.idField).isSome = true ∨
    ∃ nested, Fields.get? c.idField record = some (.document nested)

theorem carries_of_document {id : Identifier} (hid : id.stored.exactKey?.isSome = true)
    {record nested : Document} (h : Fields.get? c.idField record = some (.document nested)) :
    c.carries id record = false := by
  obtain ⟨key, hkey⟩ := Option.isSome_iff_exists.1 hid
  have hnone : record.exactKey? c.idField = none := by
    rw [Document.exactKey?, h]
    rfl
  rw [carries, hnone, hkey]
  rfl

theorem accepts_keyIs_eq_carries {reader : PatternReader} (hdot : '.' ∉ c.idField.toList)
    {id : Identifier} (hid : id.stored.exactKey?.isSome = true) {record : Document}
    (h : c.Addressable record) :
    (c.keyIs id).accepts reader record = c.carries id record := by
  rcases h with hkey | ⟨nested, hnested⟩
  · exact accepts_keyIs_of_exact hdot hkey hid
  · rw [accepts_keyIs hdot, carries_of_document hid hnested, hnested]
    cases hvalue : id.stored with
    | int32 | int64 | string | objectId => rfl
    | _ => simp [hvalue, Value.exactKey?] at hid

/-- A change keeps the identifier, or leaves a document in its place where a dotted key leads
into it. -/
theorem get?_changed_or_document {change : Change} (h : change.Avoids c.idField)
    (record : Document) :
    Fields.get? c.idField (changed c.idField change record) = Fields.get? c.idField record ∨
      ∃ nested, Fields.get? c.idField (changed c.idField change record) =
        some (.document nested) := by
  cases change with
  | replace body => exact .inl (get?_replaced c.idField record body)
  | merge patch =>
      by_cases hreaches : patch.ReachesInto c.idField
      · exact .inr (Document.get?_overlay_of_reaching h hreaches record)
      · have hspares : patch.Spares c.idField := fun entry hentry hhead =>
          hreaches ⟨entry, hentry, h entry hentry, hhead⟩
        exact .inl (Document.get?_overlay_of_spares hspares record)

section Changes

variable {change : Change} (h : change.Avoids c.idField)

include h

theorem addressable_changed {record : Document} (hrecord : c.Addressable record) :
    c.Addressable (changed c.idField change record) := by
  rcases get?_changed_or_document h record with hsame | hdocument
  · rw [Addressable, Document.exactKey?, hsame]
    exact hrecord
  · exact .inr hdocument

theorem carries_changed_eq_false {id : Identifier} (hid : id.stored.exactKey?.isSome = true)
    {record : Document} (hrecord : c.carries id record = false) :
    c.carries id (changed c.idField change record) = false := by
  rcases get?_changed_or_document h record with hsame | ⟨nested, hnested⟩
  · rw [carries, Document.exactKey?, hsame]
    exact hrecord
  · exact carries_of_document hid hnested

end Changes

/-! ## Changes under different identifiers -/

/-- The records of the collection can be addressed, and nothing but records was written. -/
structure Revised (c : Collection) (before store : Memory.Store) : Prop where
  settings : store.settings = before.settings
  addressable : ∀ record ∈ store.records c.name, c.Addressable record

theorem Revised.idField {before store : Memory.Store} (h : c.Revised before store)
    (hfield : before.idField = c.idField) : store.idField = c.idField :=
  (idField_of_settings before h.settings).trans hfield

theorem Revised.patterns {before store : Memory.Store} (h : c.Revised before store) :
    store.patterns = before.patterns :=
  patterns_of_settings before h.settings

theorem revised_afterRevision {before store : Memory.Store} {change : Change}
    (havoids : change.Avoids c.idField) (h : c.Revised before store) (id : Identifier) :
    c.Revised before (c.afterRevision store id change) := by
  refine ⟨(settings_afterRevision store id change).trans h.settings, fun record hrecord => ?_⟩
  rw [records_afterRevision] at hrecord
  rcases mem_changeFirst hrecord with hold | ⟨previous, hprevious, -, rfl⟩
  · exact h.addressable record hold
  · have haddressable := h.addressable previous hprevious
    rcases settled_eq_or store c.name (changed c.idField change) previous with hsame | hchanged
    · rw [hsame]
      exact haddressable
    · rw [hchanged]
      exact addressable_changed havoids haddressable

section Pairs

variable {first second : Identifier} {one two : Change}
    (hdot : '.' ∉ c.idField.toList)
    (hfirst : first.stored.exactKey?.isSome = true)
    (hsecond : second.stored.exactKey?.isSome = true)
    (hne : first.stored.exactKey? ≠ second.stored.exactKey?)
    {before store : Memory.Store} (hstore : c.Revised before store)

include hdot hfirst hsecond hne hstore

theorem accepts_of_other {reader : PatternReader} (hone : one.Avoids c.idField) :
    ∀ record ∈ store.records c.name, (c.keyIs first).accepts reader record = true →
      (c.keyIs second).accepts reader record = false ∧
      (c.keyIs second).accepts reader (store.settled c.name (changed c.idField one) record) =
        false := by
  intro record hrecord haccepts
  have haddressable := hstore.addressable record hrecord
  rw [accepts_keyIs_eq_carries hdot hfirst haddressable, carries, decide_eq_true_eq] at haccepts
  have hold : c.carries second record = false := by
    rw [carries, haccepts, decide_eq_false_iff_not]
    exact hne
  have hother : (c.keyIs second).accepts reader record = false :=
    (accepts_keyIs_eq_carries hdot hsecond haddressable).trans hold
  refine ⟨hother, ?_⟩
  rcases settled_eq_or store c.name (changed c.idField one) record with hsame | hchanged
  · rw [hsame]
    exact hother
  · rw [hchanged,
      accepts_keyIs_eq_carries hdot hsecond (addressable_changed hone haddressable)]
    exact carries_changed_eq_false hone hsecond hold

theorem find?_records_afterRevision (hone : one.Avoids c.idField) :
    ((c.afterRevision store first one).records c.name).find?
        ((c.keyIs second).accepts before.patterns) =
      (store.records c.name).find? ((c.keyIs second).accepts before.patterns) := by
  rw [records_afterRevision, hstore.patterns]
  exact find?_changeFirst_of_disjoint
    (accepts_of_other hdot hfirst hsecond hne hstore hone)

theorem afterRevision_comm (hone : one.Avoids c.idField) (htwo : two.Avoids c.idField)
    (hcreates : one.creates = two.creates) :
    c.afterRevision (c.afterRevision store second two) first one =
      c.afterRevision (c.afterRevision store first one) second two := by
  cases hwrites : one.creates || Fields.contains c.name store.collections with
  | false =>
      have hwrites' : (two.creates || Fields.contains c.name store.collections) = false :=
        hcreates ▸ hwrites
      rw [afterRevision_of_not_writes hwrites', afterRevision_of_not_writes hwrites,
        afterRevision_of_not_writes hwrites']
  | true =>
      have hwrites' : (two.creates || Fields.contains c.name store.collections) = true :=
        hcreates ▸ hwrites
      rw [afterRevision_afterRevision hwrites', afterRevision_afterRevision hwrites]
      congr 1
      exact changeFirst_comm
        (accepts_of_other hdot hfirst hsecond hne hstore hone)
        (accepts_of_other hdot hsecond hfirst hne.symm hstore htwo)

end Pairs

/-! ## The steps of a batch -/

/-- How a step for one record of a batch is answered. -/
def answerStep (step : Identifier → Document → Program Document)
    (entry : Identifier × Document) : Memory.Store → Except Failure Document × Memory.Store :=
  (step entry.1 entry.2).run handle

theorem run_forEach (step : Identifier → Document → Program Document)
    (entries : List (Identifier × Document)) (store : Memory.Store) :
    (forEach step entries).run handle store =
      (.ok ((events (answerStep step) entries store).map fun event => .ofResult event.2),
        afterSteps (answerStep step) entries store) := by
  induction entries generalizing store with
  | nil => rfl
  | cons entry entries ih =>
      have hcons : forEach step (entry :: entries) = (do
          let outcome ← (do return Outcome.ofResult (← (step entry.1 entry.2).attempt))
          let outcomes ← forEach step entries
          return outcome :: outcomes) := List.mapM_cons
      rw [hcons, run_bind, run_bind, run_attempt]
      simp only [run_pure]
      rw [run_bind, ih]
      rfl

/-- Different identifiers that are compared exactly. -/
structure ExactEntries (entries : List (Identifier × Document)) : Prop where
  keys : ∀ entry ∈ entries, entry.1.stored.exactKey?.isSome = true
  distinct : (entries.map fun entry => entry.1.stored.exactKey?).Nodup

def outcomeAlone (step : Identifier → Document → Program Document) (before : Memory.Store)
    (entry : Identifier × Document) : Outcome :=
  .ofResult (answerStep step entry before).1

/-- A run that reports on the entries in their order.  In any other order the steps leave the
same store and have the same outcomes, which are those that each has alone. -/
structure RunsInAnyOrder (step : Identifier → Document → Program Document)
    (entries : List (Identifier × Document)) (before : Memory.Store)
    (run : Except Failure (List Outcome) × Memory.Store) : Prop where
  reports : run.1 = .ok (entries.map (outcomeAlone step before))
  order : ∀ order : List (Identifier × Document), order.Perm entries →
    (forEach step order).run handle before =
      (.ok (order.map (outcomeAlone step before)), run.2)

def revisionStep (c : Collection) (change : Document → Change) (projection : Projection)
    (id : Identifier) (body : Document) : Program Document :=
  c.reviseStored projection id (change body)

section Batches

variable (change : Document → Change) (projection : Projection)

theorem independent_revisions (hdot : '.' ∉ c.idField.toList) {before : Memory.Store}
    (hfield : before.idField = c.idField)
    (hcreates : ∀ body other, (change body).creates = (change other).creates)
    {first second : Identifier × Document} (hfirst : first.1.stored.exactKey?.isSome = true)
    (hsecond : second.1.stored.exactKey?.isSome = true)
    (hne : first.1.stored.exactKey? ≠ second.1.stored.exactKey?)
    (hone : (change first.2).Avoids c.idField) (htwo : (change second.2).Avoids c.idField) :
    Independent (answerStep (c.revisionStep change projection))
      (c.Revised before) first second := by
  have hrun (entry : Identifier × Document) {state : Memory.Store}
      (hstate : c.Revised before state) :
      answerStep (c.revisionStep change projection) entry state =
        (c.revisionResult before projection entry.1 (change entry.2)
          ((state.records c.name).find? ((c.keyIs entry.1).accepts before.patterns)),
          c.afterRevision state entry.1 (change entry.2)) := by
    rw [answerStep, revisionStep, run_reviseStored (hstate.idField hfield),
      revisionResult_congr hstate.settings, hstate.patterns]
  constructor
  · intro state hstate
    have hnext := revised_afterRevision htwo hstate second.1
    rw [hrun second hstate, hrun first hnext, hrun first hstate,
      find?_records_afterRevision hdot hsecond hfirst hne.symm hstate htwo]
  · intro state hstate
    have hnext := revised_afterRevision hone hstate first.1
    rw [hrun first hstate, hrun second hnext, hrun second hstate,
      find?_records_afterRevision hdot hfirst hsecond hne hstate hone]
  · intro state hstate
    rw [hrun second hstate, hrun first (revised_afterRevision htwo hstate second.1),
      hrun first hstate, hrun second (revised_afterRevision hone hstate first.1)]
    exact afterRevision_comm hdot hfirst hsecond hne hstate hone htwo (hcreates _ _)

theorem runsInAnyOrder_revisions (hdot : '.' ∉ c.idField.toList) {before : Memory.Store}
    (hfield : before.idField = c.idField)
    (hstored : ∀ record ∈ before.records c.name, (record.exactKey? c.idField).isSome = true)
    (hcreates : ∀ body other, (change body).creates = (change other).creates)
    {entries : List (Identifier × Document)} (hentries : ExactEntries entries)
    (havoids : ∀ entry ∈ entries, (change entry.2).Avoids c.idField) :
    RunsInAnyOrder (c.revisionStep change projection) entries before
      ((forEach (c.revisionStep change projection) entries).run
        handle before) := by
  have hbefore : c.Revised before before :=
    ⟨rfl, fun record hrecord => .inl (hstored record hrecord)⟩
  have hkeeps : ∀ entry ∈ entries, ∀ state, c.Revised before state → c.Revised before
      (answerStep (c.revisionStep change projection) entry state).2 := by
    intro entry hentry state hstate
    rw [answerStep, revisionStep, run_reviseStored (hstate.idField hfield)]
    exact revised_afterRevision (havoids entry hentry) hstate entry.1
  have hpairs : entries.Pairwise
      (Independent (answerStep (c.revisionStep change projection))
        (c.Revised before)) := by
    have hdistinct := List.pairwise_map.1 hentries.distinct
    refine hdistinct.imp_of_mem fun hfirst hsecond hne => ?_
    exact independent_revisions change projection hdot hfield hcreates (hentries.keys _ hfirst)
      (hentries.keys _ hsecond) hne (havoids _ hfirst) (havoids _ hsecond)
  have horder (order : List (Identifier × Document)) (hperm : order.Perm entries) :
      (forEach (c.revisionStep change projection) order).run
          handle before =
        (.ok (order.map (outcomeAlone (c.revisionStep change projection)
          before)),
          ((forEach (c.revisionStep change projection) entries).run
            handle before).2) := by
    have hanswers := events_of_independent
      (fun entry hentry => hkeeps entry (hperm.subset hentry))
      ((hperm.pairwise_iff Independent.symm).2 hpairs) hbefore
    rw [run_forEach, run_forEach, afterSteps_perm hperm hkeeps hpairs hbefore, hanswers,
      List.map_map]
    rfl
  exact ⟨congrArg Prod.fst (horder entries (.refl _)), horder⟩

end Batches

/-! ## Requests -/

namespace Request

theorem avoids_of_payloads {records entries : List (Identifier × Document)}
    (h : c.payloads records = .ok entries) :
    ∀ entry ∈ entries, (Change.merge entry.2).Avoids c.idField := by
  intro entry hentry
  obtain ⟨record, -, hpayload⟩ := exists_of_mem_mapM h hentry
  cases hpatch : c.payload record.2 with
  | error failure => simp [hpatch, Except.map] at hpayload
  | ok patch =>
      simp only [hpatch, Except.map, Except.ok.injEq] at hpayload
      subst hpayload
      exact fun field hfield => (mem_of_payload c hpatch hfield).2

/-- The calls of a batch of updates or merges may be answered in any order, if all identifiers
are exact and those of the batch differ. -/
theorem runsInAnyOrder_of_exact {c : Collection} (hdot : '.' ∉ c.idField.toList)
    {before : Memory.Store} (hfield : before.idField = c.idField)
    (hstored : ∀ record ∈ before.records c.name, (record.exactKey? c.idField).isSome = true)
    (batch : Batch) (fields : FieldChoice) :
    (∀ entries, c.addressedBatch .update batch = .ok entries → ExactEntries entries →
      RunsInAnyOrder (c.replaceStored (c.projection fields)) entries before
        (((replaceEach batch fields).program c).run handle before)) ∧
    (∀ records entries, c.addressedBatch .merge batch = .ok records →
      c.payloads records = .ok entries → ExactEntries entries →
      RunsInAnyOrder (c.mergeStored (c.projection fields)) entries before
        (((mergeEach batch fields).program c).run handle before)) := by
  constructor
  · intro entries hentries hexact
    rw [program, Collection.replaceEach, hentries]
    exact runsInAnyOrder_revisions .replace (c.projection fields) hdot hfield hstored
      (fun _ _ => rfl) hexact fun _ _ => trivial
  · intro records entries hrecords hentries hexact
    have hprogram : (mergeEach batch fields).program c =
        forEach (c.mergeStored (c.projection fields)) entries := by
      rw [program, Collection.mergeEach, hrecords]
      change (liftM (c.payloads records) >>= fun entries =>
        forEach (c.mergeStored (c.projection fields)) entries) = _
      rw [hentries]
      rfl
    rw [hprogram]
    exact runsInAnyOrder_revisions .merge (c.projection fields) hdot hfield hstored
      (fun _ _ => rfl) hexact (avoids_of_payloads hentries)

/-- The identifier 1 is stored in another width and `y` is not stored, the record of `x` would
lose a required field, and a dotted key leads into an identifier. -/
theorem runsInAnyOrder_of_four_records :
    let c : Collection := ⟨"c", "_id"⟩
    let before : Memory.Store :=
      { required := [("c", ["k.n"])],
        collections := [("c", [[("_id", .int32 1), ("k", .document [("n", .int32 1)])],
          [("_id", .string "x"), ("k", .document [("n", .int32 2)])],
          [("_id", .int64 2), ("k", .document [("n", .int32 3)])]])],
        freshId := .ofNat }
    let batch : Batch := ⟨[[("_id", .int64 1), ("a", .int32 5), ("k.n", .int32 6)],
      [("id", .string "x"), ("k", .int32 7)], [("_id", .string "y"), ("a", .int32 8)],
      [("_id", .int32 2), ("_id.z", .int32 9)]]⟩
    let identifiers : List Identifier :=
      [.external (.int64 1), .external (.string "x"), .external (.string "y"),
        .external (.int32 2)]
    let replacements := identifiers.zip [[("_id", .int64 1), ("a", .int32 5), ("k.n", .int32 6)],
      [("k", .int32 7), ("_id", .string "x")], [("_id", .string "y"), ("a", .int32 8)],
      [("_id", .int32 2), ("_id.z", .int32 9)]]
    let patches := identifiers.zip [[("a", .int32 5), ("k.n", .int32 6)], [("k", .int32 7)],
      [("a", .int32 8)], [("_id.z", .int32 9)]]
    '.' ∉ c.idField.toList ∧ before.idField = c.idField ∧
    (∀ record ∈ before.records c.name, (record.exactKey? c.idField).isSome = true) ∧
    c.addressedBatch .update batch = .ok replacements ∧
    c.addressedBatch .merge batch = .ok replacements ∧ c.payloads replacements = .ok patches ∧
    ExactEntries replacements ∧ ExactEntries patches ∧
    RunsInAnyOrder (c.replaceStored (c.projection default)) replacements before
      (((replaceEach batch default).program c).run handle before) ∧
    RunsInAnyOrder (c.mergeStored (c.projection default)) patches before
      (((mergeEach batch default).program c).run handle before) := by
  intro c before batch identifiers replacements patches
  have hdot : '.' ∉ c.idField.toList := by decide
  have hstored : ∀ record ∈ before.records c.name,
      (record.exactKey? c.idField).isSome = true := by decide
  have hreplacements : ExactEntries replacements := ⟨by decide, by decide⟩
  have hpatches : ExactEntries patches := ⟨by decide, by decide⟩
  have hboth := runsInAnyOrder_of_exact hdot rfl hstored batch default
  exact ⟨hdot, rfl, hstored, rfl, rfl, rfl, hreplacements, hpatches,
    hboth.1 replacements rfl hreplacements, hboth.2 replacements patches rfl rfl hpatches⟩

end Request

end Collection

end DocumentStore
