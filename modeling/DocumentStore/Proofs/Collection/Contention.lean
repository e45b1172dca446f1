import DocumentStore.Proofs.Backend.Orders
import DocumentStore.Proofs.Collection.ListedChanges
import DocumentStore.Proofs.Collection.SingleChanges

/-!
# Deletions of one record among concurrent changes

Many clients change records of a collection, and some of them delete the record of one
identifier.  However they take turns, one deletion gets the record and the others find none.
What the first deletion returns is the record as the changes before it left it, and no change
behind it puts the record back.
-/

namespace DocumentStore

open Backend Program Memory Memory.Store

/-- A client deletes the record of the identifier that all clients contend for, or changes the
record of one of its own choice. -/
inductive Client where
  | delete (fields : FieldChoice)
  | replace (record : Document) (id : Value) (fields : FieldChoice)
  | merge (record : Document) (id : Value) (fields : FieldChoice)

namespace Client

def program (c : Collection) (target : Value) : Client → Program Document
  | .delete fields => c.deleteAt target fields
  | .replace record id fields => c.replaceAt record id fields
  | .merge record id fields => c.mergeAt record id fields

def step (c : Collection) (target : Value) (client : Client) :
    Memory.Store → Except Failure Document × Memory.Store :=
  (client.program c target).run handle

def fields : Client → FieldChoice
  | .delete fields | .replace _ _ fields | .merge _ _ fields => fields

def deletes : Client → Bool
  | .delete _ => true
  | _ => false

theorem exists_of_deletes {client : Client} (h : client.deletes = true) :
    ∃ fields, client = .delete fields := by
  cases client with
  | delete fields => exact ⟨fields, rfl⟩
  | replace | merge => cases h

/-- The identifier and the payload of a request that is not refused. -/
def accepted? (c : Collection) (record : Document) (id : Value) : Option (Identifier × Document) :=
  match Collection.readId id, c.payload record with
  | .ok key, .ok payload => some (key, payload)
  | _, _ => none

def revision? (c : Collection) : Client → Option (Identifier × Change)
  | .delete _ => none
  | .replace record id _ => (accepted? c record id).map fun (key, body) => (key, .replace body)
  | .merge record id _ => (accepted? c record id).map fun (key, patch) => (key, .merge patch)

/-- No dotted key of a merge leads into the identifier field. -/
def SparesIdentifier (c : Collection) : Client → Prop
  | .merge record _ _ => ¬ record.ReachesInto c.idField
  | _ => True

instance (c : Collection) : (client : Client) → Decidable (client.SparesIdentifier c)
  | .merge record _ _ => inferInstanceAs (Decidable (¬ record.ReachesInto c.idField))
  | .delete _ | .replace .. => inferInstanceAs (Decidable True)

variable {c : Collection} {target : Value} {client : Client}

theorem of_accepted? {record payload : Document} {id : Value} {key : Identifier}
    (h : accepted? c record id = some (key, payload)) :
    Collection.readId id = .ok key ∧ c.payload record = .ok payload := by
  unfold accepted? at h
  split at h
  · next hid hpayload =>
    obtain ⟨rfl, rfl⟩ := Prod.mk.inj (Option.some.inj h)
    exact ⟨hid, hpayload⟩
  · cases h

theorem oneCall (c : Collection) (target : Value) (client : Client) :
    (client.program c target).OneCall := by
  cases client with
  | delete fields =>
      refine oneCall_lift_bind fun key => oneCall_perform_bind fun found => ?_
      cases found <;> exact ⟨_, rfl⟩
  | replace record id fields =>
      refine oneCall_lift_bind fun payload => oneCall_lift_bind fun key => oneCall_perform_bind ?_
      intro (matched : Nat)
      split
      · exact ⟨_, rfl⟩
      · exact ⟨_, rfl⟩
  | merge record id fields =>
      refine oneCall_lift_bind fun payload => oneCall_lift_bind fun key =>
        oneCall_perform_bind fun found => ?_
      cases found <;> exact ⟨_, rfl⟩

theorem spares_of_revision? (hspares : client.SparesIdentifier c) {id : Identifier}
    {change : Change} (h : client.revision? c = some (id, change)) : change.Spares c.idField := by
  cases client with
  | delete fields => cases h
  | replace record id fields =>
      obtain ⟨⟨key, body⟩, -, hchange⟩ := Option.map_eq_some_iff.1 h
      cases hchange
      trivial
  | merge record id fields =>
      obtain ⟨⟨key, patch⟩, haccepted, hchange⟩ := Option.map_eq_some_iff.1 h
      cases hchange
      exact Collection.Request.spares_of_payload hspares (of_accepted? haccepted).2

theorem program_of_revision? {id : Identifier} {change : Change}
    (h : client.revision? c = some (id, change)) :
    client.program c target = c.reviseStored (c.projection client.fields) id change := by
  cases client with
  | delete fields => cases h
  | replace record id fields =>
      obtain ⟨⟨key, body⟩, haccepted, hchange⟩ := Option.map_eq_some_iff.1 h
      obtain ⟨hid, hpayload⟩ := of_accepted? haccepted
      cases hchange
      exact (Collection.Request.program_reviseAt hpayload hid fields).1
  | merge record id fields =>
      obtain ⟨⟨key, patch⟩, haccepted, hchange⟩ := Option.map_eq_some_iff.1 h
      obtain ⟨hid, hpayload⟩ := of_accepted? haccepted
      cases hchange
      exact (Collection.Request.program_reviseAt hpayload hid fields).2

theorem done_of_refused {record : Document} {id : Value} (h : accepted? c record id = none)
    (step : Document → Identifier → Program Document) :
    ∃ failure, (do
      let payload ← liftM (c.payload record)
      let key ← liftM (Collection.readId id)
      step payload key) = Program.done (.error failure) := by
  cases hpayload : c.payload record with
  | error failure => exact ⟨failure, rfl⟩
  | ok payload =>
      cases hid : Collection.readId id with
      | error failure => exact ⟨failure, rfl⟩
      | ok key =>
          rw [accepted?, hpayload, hid] at h
          cases h

/-- A refused client asks the store nothing. -/
theorem program_of_refused (target : Value) (hdeletes : client.deletes = false)
    (h : client.revision? c = none) :
    ∃ failure, client.program c target = .done (.error failure) := by
  cases client with
  | delete fields => cases hdeletes
  | replace record id fields =>
      exact done_of_refused (Option.map_eq_none_iff.1 h) fun payload key =>
        c.replaceStored (c.projection fields) key payload
  | merge record id fields =>
      exact done_of_refused (Option.map_eq_none_iff.1 h) fun payload key =>
        c.mergeStored (c.projection fields) key payload

end Client

namespace Collection

variable {c : Collection} {key : Identifier}

/-! ## The record of the identifier -/

def carrier? (c : Collection) (key : Identifier) (store : Memory.Store) : Option Document :=
  (store.records c.name).find? (c.carries key)

def addresses (c : Collection) (id : Identifier) (record : Document) : Bool :=
  Comparison.foundEqual (Fields.get? c.idField record) id.stored

/-- Whether the first of the records that another identifier addresses is that of the key. -/
def reaches (c : Collection) (key id : Identifier) (records : List Document) : Bool :=
  (records.find? (c.addresses id)).any (c.carries key)

/-- What an event leaves of the record of the key: an answered change that reaches it changes
it. -/
def versionStep (c : Collection) (key : Identifier) (records : List Document) (stored : Document)
    (event : Client × Except Failure Document) : Document :=
  match event.1.revision? c with
  | none => stored
  | some (id, change) =>
    if event.2.toBool && c.reaches key id records then changed c.idField change stored else stored

def versionAfter (c : Collection) (key : Identifier) (records : List Document)
    (events : List (Client × Except Failure Document)) (stored : Document) : Document :=
  events.foldl (c.versionStep key records) stored

theorem accepts_keyIs_eq_addresses (hdot : '.' ∉ c.idField.toList) (reader : PatternReader)
    (id : Identifier) : (c.keyIs id).accepts reader = c.addresses id :=
  funext fun record => accepts_keyIs hdot id record

theorem reaches_congr {records others : List Document}
    (hsame : records.map (Fields.get? c.idField) = others.map (Fields.get? c.idField))
    (key id : Identifier) :
    c.reaches key id records = c.reaches key id others := by
  have hids (records : List Document) : c.reaches key id records =
      ((records.map (Fields.get? c.idField)).find? (Comparison.foundEqual · id.stored)).any
        fun stored => decide (stored.bind Value.exactKey? = key.stored.exactKey?) := by
    rw [reaches, List.find?_map, Option.any_map]
    rfl
  rw [hids, hids, hsame]

section Changes

variable {records : List Document} (hkeyed : ExactlyKeyed c.idField records)
    {change : Document → Document}
    (hchange : ∀ record, Fields.get? c.idField (change record) = Fields.get? c.idField record)

include hkeyed hchange

/-- Of the record of the key a change leaves what it makes of it, where it reaches it. -/
theorem find?_carries_changeFirst (id : Identifier) :
    (changeFirst (c.addresses id) change records).find? (c.carries key) =
      (records.find? (c.carries key)).map fun stored =>
        if c.reaches key id records then change stored else stored := by
  have hcarries (record : Document) : c.carries key (change record) = c.carries key record := by
    rw [carries, carries, Document.exactKey?, Document.exactKey?, hchange]
  cases hfind : records.find? (c.addresses id) with
  | none =>
      have hnone : ∀ record ∈ records, c.addresses id record = false :=
        fun record hrecord => by simpa using List.find?_eq_none.1 hfind record hrecord
      have hreaches : c.reaches key id records = false := by
        rw [reaches, hfind]
        rfl
      simp [changeFirst_of_none hnone, hreaches]
  | some previous =>
      obtain ⟨hprevious, before, behind, hrecords, hbefore⟩ := List.find?_eq_some_iff_append.1 hfind
      have hreaches : c.reaches key id records = c.carries key previous := by
        rw [reaches, hfind]
        rfl
      have hafter : changeFirst (c.addresses id) change records =
          before ++ change previous :: behind := by
        rw [hrecords]
        exact changeFirst_append (fun record hrecord => by simpa using hbefore record hrecord)
          hprevious
      have hkeyedAfter : ExactlyKeyed c.idField (changeFirst (c.addresses id) change records) :=
        hkeyed.of_same (map_changeFirst hchange).symm
      cases hcarrier : c.carries key previous with
      | true =>
          have hmem : previous ∈ records := List.mem_of_find?_eq_some hfind
          have hmemAfter : change previous ∈ changeFirst (c.addresses id) change records := by
            simp [hafter]
          rw [find?_carries hkeyed hmem hcarrier,
            find?_carries hkeyedAfter hmemAfter ((hcarries previous).trans hcarrier), hreaches,
            hcarrier]
          rfl
      | false =>
          rw [hafter, hreaches, hcarrier, hrecords]
          simp [List.find?_append, hcarrier, hcarries]

end Changes

theorem find?_carries_eraseP {records : List Document} (hkeyed : ExactlyKeyed c.idField records) :
    (records.eraseP (c.carries key)).find? (c.carries key) = none := by
  cases hfind : records.find? (c.carries key) with
  | none =>
      rw [List.eraseP_of_forall_not (List.find?_eq_none.1 hfind)]
      exact hfind
  | some record =>
      obtain ⟨hrecord, first, rest, rfl, hfirst⟩ := List.find?_eq_some_iff_append.1 hfind
      have hdistinct := hkeyed.distinct
      rw [(List.perm_middle.map _).nodup_iff, List.map_cons, List.nodup_cons] at hdistinct
      rw [eraseP_append (fun other hother => by simpa using hfirst other hother) hrecord]
      refine List.find?_eq_none.2 fun other hother hcarries => hdistinct.1 ?_
      rw [carries, decide_eq_true_eq] at hrecord hcarries
      rw [hrecord, ← hcarries]
      exact List.mem_map_of_mem hother

/-! ## Stores that the clients leave -/

/-- As long as the record is there, all identifiers are where they were. -/
structure Follows (c : Collection) (key : Identifier) (before store : Memory.Store) : Prop where
  settings : store.settings = before.settings
  keyed : ExactlyKeyed c.idField (store.records c.name)
  same : (c.carrier? key store).isSome = true →
    (store.records c.name).map (Fields.get? c.idField) =
      (before.records c.name).map (Fields.get? c.idField)

section Steps

variable {before store : Memory.Store}

theorem versionStep_revision (hkeyed : ExactlyKeyed c.idField (store.records c.name))
    {stored : Document} (hcarrier : c.carrier? key store = some stored) {client : Client}
    {id : Identifier} {change : Change} (hrevision : client.revision? c = some (id, change))
    (projection : Projection) :
    c.versionStep key (store.records c.name) stored
        (client, c.revisionResult store projection id change
          ((store.records c.name).find? (c.addresses id))) =
      if c.reaches key id (store.records c.name) then
        store.settled c.name (changed c.idField change) stored
      else stored := by
  cases hreaches : c.reaches key id (store.records c.name) with
  | false => simp [versionStep, hrevision, hreaches]
  | true =>
      obtain ⟨previous, hfind, hprevious⟩ := (Option.any_eq_true _ _).1 hreaches
      have hstored : previous = stored := by
        have hmem := List.mem_of_find?_eq_some hfind
        rw [carrier?, find?_carries hkeyed hmem hprevious] at hcarrier
        exact Option.some.inj hcarrier
      subst hstored
      rw [hfind, revisionResult, settled]
      cases hmissing : store.missingField? c.name (changed c.idField change previous) with
      | some field => simp [versionStep, hrevision, Except.toBool]
      | none => simp [versionStep, hrevision, hreaches, Except.toBool]

variable (hdot : '.' ∉ c.idField.toList)

theorem versionStep_congr {records others : List Document}
    (hsame : records.map (Fields.get? c.idField) = others.map (Fields.get? c.idField)) :
    c.versionStep key records = c.versionStep key others := by
  funext stored event
  unfold versionStep
  simp only [reaches_congr hsame]

include hdot in
theorem follows_revision (hfield : before.idField = c.idField) (h : c.Follows key before store)
    (target : Value) {client : Client} (hdeletes : client.deletes = false)
    (hspares : client.SparesIdentifier c) :
    c.Follows key before (client.step c target store).2 ∧
    c.carrier? key (client.step c target store).2 =
      (c.carrier? key store).map (c.versionStep key (before.records c.name) ·
        (client, (client.step c target store).1)) := by
  cases hrevision : client.revision? c with
  | none =>
      obtain ⟨failure, hprogram⟩ := Client.program_of_refused target hdeletes hrevision
      rw [Client.step, hprogram]
      refine ⟨h, ?_⟩
      simp [run, versionStep, hrevision]
  | some revision =>
      obtain ⟨id, change⟩ := revision
      have hchange := get?_settled (Client.spares_of_revision? hspares hrevision) store
      have hrun := run_reviseStored ((idField_of_settings before h.settings).trans hfield)
        (c.projection client.fields) id change
      have haccepts := accepts_keyIs_eq_addresses hdot store.patterns id
      rw [Client.step, Client.program_of_revision? hrevision, hrun, haccepts]
      have hcarrier : c.carrier? key (c.afterRevision store id change) =
          (c.carrier? key store).map (c.versionStep key (before.records c.name) ·
            (client, c.revisionResult store (c.projection client.fields) id change
              ((store.records c.name).find? (c.addresses id)))) := by
        rw [carrier?, records_afterRevision, haccepts, find?_carries_changeFirst h.keyed hchange,
          ← carrier?]
        cases hstored : c.carrier? key store with
        | none => rfl
        | some stored =>
            have hsame := h.same (by rw [hstored]; rfl)
            rw [Option.map_some, Option.map_some, ← versionStep_congr hsame,
              versionStep_revision h.keyed hstored hrevision]
      have hids : ((c.afterRevision store id change).records c.name).map
          (Fields.get? c.idField) = (store.records c.name).map (Fields.get? c.idField) := by
        rw [records_afterRevision]
        exact map_changeFirst hchange
      refine ⟨⟨?_, h.keyed.of_same hids.symm, fun hsome => ?_⟩, hcarrier⟩
      · exact (settings_afterRevision store id change).trans h.settings
      · rw [hcarrier, Option.isSome_map] at hsome
        exact hids.trans (h.same hsome)

include hdot in
theorem follows_deletion {target : Value} (hid : readId target = .ok key)
    (hkey : key.stored.exactKey?.isSome = true) (h : c.Follows key before store)
    (fields : FieldChoice) :
    c.Follows key before ((Client.delete fields).step c target store).2 ∧
    ((Client.delete fields).step c target store).1 =
      c.deletionResult (c.projection fields) key (c.carrier? key store) ∧
    c.carrier? key ((Client.delete fields).step c target store).2 = none := by
  have hprogram : (Client.delete fields).program c target =
      c.deleteStored (c.projection fields) key := by
    rw [Client.program, deleteAt, hid]
    rfl
  have haccepts (record : Document) (hrecord : record ∈ store.records c.name) :
      (c.keyIs key).accepts store.patterns record = c.carries key record :=
    accepts_keyIs_of_exact hdot (h.keyed.keys record hrecord) hkey
  have hfind : (store.records c.name).find? ((c.keyIs key).accepts store.patterns) =
      c.carrier? key store :=
    List.find?_congr haccepts
  rw [Client.step, hprogram, run_deleteStored, hfind, eraseP_congr haccepts]
  cases hcarrier : c.carrier? key store with
  | none => exact ⟨h, rfl, hcarrier⟩
  | some record =>
      let erased := (store.records c.name).eraseP (c.carries key)
      have hrecords : (store.setRecords c.name erased).records c.name = erased :=
        records_setRecords_self store c.name erased
      have hnone : c.carrier? key (store.setRecords c.name erased) = none := by
        rw [carrier?, hrecords]
        exact find?_carries_eraseP h.keyed
      refine ⟨⟨h.settings, ?_, fun hsome => ?_⟩, rfl, hnone⟩
      · change ExactlyKeyed c.idField ((store.setRecords c.name erased).records c.name)
        rw [hrecords]
        exact h.keyed.sublist List.eraseP_sublist
      · exact absurd hsome (by simp [erased, hnone])

end Steps

/-! ## Turns of the clients -/

section Turns

variable (hdot : '.' ∉ c.idField.toList) {before store : Memory.Store}
    (hfield : before.idField = c.idField) {target : Value} (hid : readId target = .ok key)
    (hkey : key.stored.exactKey?.isSome = true) {order : List Client}
    (hspares : ∀ client ∈ order, client.SparesIdentifier c) (h : c.Follows key before store)

include hdot hfield hid hkey hspares h

/-- A deletion takes the record out for good, and until then it is what the answered changes
make of it. -/
theorem follows_afterSteps :
    c.Follows key before
      (afterSteps (Client.step c target) order store) ∧
    c.carrier? key (afterSteps (Client.step c target) order store) =
      if order.any Client.deletes then none
      else (c.carrier? key store).map (c.versionAfter key (before.records c.name)
        (events (Client.step c target) order store)) := by
  -- The record is gone from the first deletion on, and before it each turn makes a version.
  induction order generalizing store with
  | nil => exact ⟨h, Option.map_id_apply.symm⟩
  | cons client order ih =>
      have hrest := fun other hother => hspares other (List.mem_cons_of_mem _ hother)
      cases hdeletes : client.deletes with
      | true =>
          obtain ⟨fields, rfl⟩ := Client.exists_of_deletes hdeletes
          obtain ⟨hnext, -, hnone⟩ := follows_deletion hdot hid hkey h fields
          obtain ⟨hafter, hcarrier⟩ := ih hrest hnext
          refine ⟨hafter, ?_⟩
          rw [afterSteps, hcarrier, hnone]
          simp [hdeletes]
      | false =>
          obtain ⟨hnext, hstep⟩ :=
            follows_revision hdot hfield h target hdeletes (hspares client List.mem_cons_self)
          obtain ⟨hafter, hcarrier⟩ := ih hrest hnext
          refine ⟨hafter, ?_⟩
          rw [afterSteps, hcarrier, hstep, events, List.any_cons, hdeletes, Bool.false_or,
            Option.map_map]
          rfl

theorem countP_events :
    (events (Client.step c target) order store).countP
        (fun event => event.1.deletes && event.2.toBool) =
      if (c.carrier? key store).isSome && order.any Client.deletes then 1 else 0 := by
  induction order generalizing store with
  | nil => simp [events]
  | cons client order ih =>
      have hrest := fun other hother => hspares other (List.mem_cons_of_mem _ hother)
      rw [events, List.countP_cons]
      cases hdeletes : client.deletes with
      | true =>
          obtain ⟨fields, rfl⟩ := Client.exists_of_deletes hdeletes
          obtain ⟨hnext, hanswer, hnone⟩ := follows_deletion hdot hid hkey h fields
          rw [ih hrest hnext, hnone, hanswer]
          cases c.carrier? key store with
          | none => simp [deletionResult, Except.toBool]
          | some record => simp [deletionResult, Except.toBool, hdeletes]
      | false =>
          obtain ⟨hnext, hstep⟩ :=
            follows_revision hdot hfield h target hdeletes (hspares client List.mem_cons_self)
          rw [ih hrest hnext, hstep, Option.isSome_map]
          simp [hdeletes]

end Turns

/-! ## Interleavings -/

/-- What the answers and the store at the end tell of the record of a key. -/
structure DeletedOnce (c : Collection) (key : Identifier) (before : Memory.Store)
    (events : List (Client × Except Failure Document)) (after : Memory.Store) : Prop where
  answered : ∀ event ∈ events, event.1.deletes = true →
    (∃ shown, event.2 = .ok shown) ∨ event.2 = .error (c.notFound key)
  once : events.countP (fun event => event.1.deletes && event.2.toBool) =
    if (c.carrier? key before).isSome && events.any (·.1.deletes) then 1 else 0
  version : ∀ earlier later fields shown,
    events = earlier ++ (.delete fields, .ok shown) :: later →
      ∃ stored, c.carrier? key before = some stored ∧
        shown = c.shown (c.projection fields)
          (c.versionAfter key (before.records c.name) earlier stored)
  gone : c.carrier? key before = none ∨ events.any (·.1.deletes) = true →
    c.carrier? key after = none

/-- The record that a deletion finds is what the events before it have made of it. -/
theorem of_delete_event (hdot : '.' ∉ c.idField.toList) {before : Memory.Store}
    (hfield : before.idField = c.idField) {target : Value} (hid : readId target = .ok key)
    (hkey : key.stored.exactKey?.isSome = true) {order : List Client}
    (hspares : ∀ client ∈ order, client.SparesIdentifier c) (h : c.Follows key before before)
    {earlier later : List (Client × Except Failure Document)} {fields : FieldChoice}
    {answer : Except Failure Document}
    (hevents : events (Client.step c target) order before =
      earlier ++ (.delete fields, answer) :: later) :
    ∃ found?, answer = c.deletionResult (c.projection fields) key found? ∧
      ∀ record, found? = some record → ∃ stored, c.carrier? key before = some stored ∧
        record = c.versionAfter key (before.records c.name) earlier stored := by
  obtain ⟨first, rest, rfl, rfl, hturn⟩ := exists_of_events_eq_append _ hevents
  have hfirst : ∀ client ∈ first, client.SparesIdentifier c :=
    fun client hclient => hspares client (List.mem_append_left _ hclient)
  obtain ⟨hmiddle, hcarrier⟩ := follows_afterSteps hdot hfield hid hkey hfirst h
  obtain ⟨-, hanswer, -⟩ := follows_deletion hdot hid hkey hmiddle fields
  refine ⟨_, hturn.trans hanswer, fun record hfound => ?_⟩
  rw [hcarrier] at hfound
  split at hfound
  · cases hfound
  · obtain ⟨stored, hstored, hrecord⟩ := Option.map_eq_some_iff.1 hfound
    exact ⟨stored, hstored, hrecord.symm⟩

/-- However clients take turns, the deletions of one identifier return its record once, as the
changes before it left it, and it stays away. -/
theorem deletedOnce_of_interleaved {c : Collection} (hdot : '.' ∉ c.idField.toList)
    {before : Memory.Store} (hfield : before.idField = c.idField)
    (hkeyed : ExactlyKeyed c.idField (before.records c.name)) {target : Value} {key : Identifier}
    (hid : readId target = .ok key) (hkey : key.stored.exactKey?.isSome = true)
    {clients : List Client} (hspares : ∀ client ∈ clients, client.SparesIdentifier c)
    {events : List (Client × Except Failure Document)} {after : Memory.Store}
    (h : Interleaved handle (clients.map fun client => (client, client.program c target)) before
      events after) :
    c.DeletedOnce key before events after := by
  obtain ⟨order, hsub, rfl, rfl⟩ :=
    h.exists_order fun client _ => client.oneCall c target
  change c.DeletedOnce key before (Backend.events (Client.step c target) order before)
    (afterSteps (Client.step c target) order before)
  have horder : ∀ client ∈ order, client.SparesIdentifier c :=
    fun client hclient => hspares client (hsub.subset hclient)
  have hbefore : c.Follows key before before := ⟨rfl, hkeyed, fun _ => rfl⟩
  have hdeletes (events : List (Client × Except Failure Document)) :
      events.any (·.1.deletes) = (events.map Prod.fst).any Client.deletes := by
    rw [List.any_map]
    rfl
  refine ⟨?_, ?_, ?_, ?_⟩
  · rintro ⟨client, answer⟩ hevent hclient
    obtain ⟨fields, rfl⟩ := Client.exists_of_deletes hclient
    obtain ⟨earlier, later, hevents⟩ := List.append_of_mem hevent
    obtain ⟨found?, rfl, -⟩ := of_delete_event hdot hfield hid hkey horder hbefore hevents
    cases found? with
    | none => exact .inr rfl
    | some record => exact .inl ⟨_, rfl⟩
  · rw [countP_events hdot hfield hid hkey horder hbefore, hdeletes, map_fst_events]
  · intro earlier later fields shown hevents
    obtain ⟨found?, hanswer, hrecord⟩ :=
      of_delete_event hdot hfield hid hkey horder hbefore hevents
    cases found? with
    | none => cases hanswer
    | some record =>
        obtain ⟨stored, hstored, rfl⟩ := hrecord record rfl
        exact ⟨stored, hstored, Except.ok.inj hanswer⟩
  · intro hgone
    rw [hdeletes, map_fst_events] at hgone
    rw [(follows_afterSteps hdot hfield hid hkey horder hbefore).2]
    rcases hgone with habsent | hdeleted
    · rw [habsent, Option.map_none, ite_self]
    · rw [if_pos hdeleted]

/-- Two deletions with a replacement before them and a merge between them; the replacement names
the identifier in another width. -/
theorem deletedOnce_of_four_clients :
    let c : Collection := ⟨"c", "_id"⟩
    let before : Memory.Store :=
      { collections := [("c", [[("_id", .string "x")], [("_id", .int32 1), ("k", .int32 1)]])],
        freshId := .ofNat }
    let replacement : Client := .replace [("k", .int32 2)] (.int64 1) default
    let merge : Client := .merge [("k", .int32 3)] (.int32 1) default
    let clients : List Client := [.delete default, replacement, merge, .delete default]
    let events : List (Client × Except Failure Document) :=
      [(replacement, .ok [("k", .int32 2), ("_id", .int64 1)]),
        (.delete default, .ok [("_id", .int32 1), ("k", .int32 2)]),
        (merge, .error (.notFound "1" "c")), (.delete default, .error (.notFound "1" "c"))]
    let after : Memory.Store :=
      { collections := [("c", [[("_id", .string "x")]])], freshId := .ofNat }
    '.' ∉ c.idField.toList ∧ before.idField = c.idField ∧
    ExactlyKeyed c.idField (before.records c.name) ∧
    readId (.int32 1) = .ok (.external (.int32 1)) ∧
    (Value.int32 1).exactKey?.isSome = true ∧
    (∀ client ∈ clients, client.SparesIdentifier c) ∧
    Interleaved handle (clients.map fun client => (client, client.program c (.int32 1))) before
      events after ∧
    c.DeletedOnce (.external (.int32 1)) before events after := by
  refine ⟨by decide, rfl, ⟨by decide, by decide⟩, rfl, rfl, ?spares, ?turns,
    deletedOnce_of_interleaved (by decide) rfl ⟨by decide, by decide⟩ rfl rfl ?spares ?turns⟩
  case spares => decide
  case turns =>
    let order : List Client := [.replace [("k", .int32 2)] (.int64 1) default, .delete default,
      .merge [("k", .int32 3)] (.int32 1) default, .delete default]
    exact Interleaved.of_order (fun client _ => Client.oneCall _ _ client) order
      (List.Perm.swap _ _ _).subperm _

end Collection

end DocumentStore
