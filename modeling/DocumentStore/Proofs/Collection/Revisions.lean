import DocumentStore.Proofs.Collection.Keys
import DocumentStore.Proofs.Collection.RequestCalls
import DocumentStore.Proofs.Memory.Identifiers

/-!
# Updates and merges leave identifiers alone

No update changes an identifier that is stored, and a merge does so only when a dotted key
of its payload leads into the identifier field.  Such a key does reach the identifier: the
payload loses the key that names the field, and not the keys that lead into it.
-/

namespace DocumentStore.Collection

open Backend

namespace Request

/-- The identifiers of every store stay as they are, whatever the request is answered. -/
def KeepsIdentifiers (c : Collection) (request : Request) : Prop :=
  ∀ store : Memory.Store, store.idField = c.idField →
    (request.after c store).identifiers = store.identifiers

/-- A merge with a dotted key that leads into the identifier field. -/
def LeadsIntoIdentifier (c : Collection) (request : Request) : Prop :=
  request.operation = .merge ∧ ∃ record ∈ request.records, record.ReachesInto c.idField

variable {c : Collection}

/-! ## Payloads that spare the identifier -/

theorem spares_of_payload {record payload : Document} (hreaches : ¬ record.ReachesInto c.idField)
    (hpayload : c.payload record = .ok payload) : payload.Spares c.idField := by
  intro entry hentry hhead
  obtain ⟨hmem, hne⟩ := mem_of_payload c hpayload hentry
  exact hreaches ⟨entry, hmem, hne, hhead⟩

theorem spares_of_isPatch {request : Request} {patch : Document}
    (hmerge : request.operation = .merge) (hleads : ¬ request.LeadsIntoIdentifier c)
    (hpatch : request.IsPatch c patch) : patch.Spares c.idField := by
  obtain ⟨record, hrecord, hentries⟩ := hpatch
  intro entry hentry hhead
  obtain ⟨hmem, hne⟩ := hentries entry hentry
  exact hleads ⟨hmerge, record, hrecord, entry, hmem, hne, hhead⟩

theorem spares_of_mayAsk {request : Request}
    (hrevision : request.operation = .update ∨ request.operation = .merge)
    (hleads : ¬ request.LeadsIntoIdentifier c) {call : Call} (hcall : request.MayAsk c call) :
    call.Spares c.idField := by
  have hcreate : request.operation ≠ .create := by
    rcases hrevision with h | h <;> simp [h]
  have hdelete : request.operation ≠ .delete := by
    rcases hrevision with h | h <;> simp [h]
  cases call with
  | replace name filter record upsert =>
      cases upsert with
      | false => rfl
      | true => exact absurd hcall.2.1 hcreate
  | update name filter change =>
      cases change with
      | replace body => trivial
      | merge patch => exact spares_of_isPatch hcall.2.1 hleads hcall.2.2
  | findAndMerge name filter patch projection =>
      exact spares_of_isPatch hcall.2.1 hleads hcall.2.2.1
  | insert name records ordered => exact absurd hcall.2 hcreate
  | findAndDelete name filter projection => exact absurd hcall.2.1 hdelete
  | delete name filter => exact absurd hcall.2 hdelete
  | createCollection | dropCollection => exact hcall.elim
  | newId | find | count | listCollections | shutdown => trivial

theorem keepsIdentifiers_of_not_leads {request : Request}
    (hrevision : request.operation = .update ∨ request.operation = .merge)
    (hleads : ¬ request.LeadsIntoIdentifier c) : request.KeepsIdentifiers c := by
  intro store hkey
  let Inv (after : Memory.Store) : Prop :=
    after.idField = c.idField ∧ after.identifiers = store.identifiers
  have hstep : ∀ call state, request.MayAsk c call → Inv state →
      Inv (Memory.Store.handle call state).2 := by
    intro call state hcall hstate
    have hspares := spares_of_mayAsk hrevision hleads hcall
    rw [← hstate.1] at hspares
    exact ⟨(Memory.Store.idField_handle call state).trans hstate.1,
      (Memory.Store.identifiers_handle hspares).trans hstate.2⟩
  exact (Program.run_keeps (asks_mayAsk c request) hstep ⟨hkey, rfl⟩ : Inv _).2

/-! ## Payloads that lead into the identifier -/

theorem payload_of_reachesInto {record : Document} (h : record.ReachesInto c.idField) :
    ∃ patch, c.payload record = .ok patch ∧ patch.ReachesInto c.idField ∧
      ∀ entry ∈ patch, entry.1 ≠ c.idField := by
  obtain ⟨entry, hentry, hne, hhead⟩ := h
  have halias : entry.1 ≠ Identifier.aliasField := by
    intro heq
    have hpath : Path.ofText entry.1 = [Identifier.aliasField] := by rw [heq]; decide
    rw [hpath] at hhead
    exact hne (heq.trans (Option.some.inj hhead))
  have hmem : entry ∈ Fields.erase Identifier.aliasField (Fields.erase c.idField record) := by
    simp [Fields.erase, hentry, hne, halias]
  have hpayload : c.payload record =
      .ok (Fields.erase Identifier.aliasField (Fields.erase c.idField record)) := by
    rw [payload, if_neg]
    simpa using List.ne_nil_of_mem hmem
  exact ⟨_, hpayload, ⟨entry, hmem, hne, hhead⟩, fun other hother =>
    (mem_of_payload c hpayload hother).2⟩

/-- A store whose only record has an array with the value for its identifier. -/
def storeWithKey (c : Collection) (value : Value) : Memory.Store where
  idField := c.idField
  collections := [(c.name, [[(c.idField, .array [value])]])]
  freshId := .ofNat

theorem after_mergeAt {record patch : Document} {id : Value} {key : Identifier}
    (hpayload : c.payload record = .ok patch) (hid : readId id = .ok key)
    (fields : FieldChoice) (store : Memory.Store) :
    (mergeAt record id fields).after c store =
      (store.findAndMerge c.name (c.keyIs key) patch (c.projection fields)).2 := by
  have hprogram : (mergeAt record id fields).program c =
      c.mergeStored (c.projection fields) key patch := by
    rw [program, Collection.mergeAt, hpayload, hid]
    rfl
  rw [after, hprogram]
  refine Program.run_bind_snd Memory.Store.handle (fun found state => ?_) store
  cases found <;> rfl

theorem not_keepsIdentifiers_mergeAt (hdot : '.' ∉ c.idField.toList) {record : Document}
    (h : record.ReachesInto c.idField) {id : Value} {key : Identifier}
    (hid : readId id = .ok key)
    (hequal : key.stored.comparand.equal key.stored.comparand = true) (fields : FieldChoice) :
    ¬ (mergeAt record id fields).KeepsIdentifiers c := by
  intro hkeeps
  obtain ⟨patch, hpayload, hreaches, hkeys⟩ := payload_of_reachesInto h
  let previous : Document := [(c.idField, .array [key.stored])]
  have hstored : (storeWithKey c key.stored).records c.name = [previous] := by
    simp [storeWithKey, Memory.Store.records, Fields.get?, previous]
  -- A filter by the identifier finds it as an element of the stored array.
  have haccepts (reader : PatternReader) : (c.keyIs key).accepts reader previous = true := by
    rw [accepts_keyIs hdot]
    simpa [previous, Fields.get?] using foundEqual_of_mem (List.mem_singleton_self _) hequal
  have hscan : (storeWithKey c key.stored).scan c.name (c.keyIs key) = .ok [(previous, true)] := by
    rw [Memory.Store.scan, hstored, Memory.Marked.ofScan_of_total]
    · simp [Memory.Marked.mark, haccepts]
    · exact fun other _ => ⟨_, evaluate_keyIs hdot key other⟩
  have hafter := congrFun (hkeeps (storeWithKey c key.stored) rfl) c.name
  rw [after_mergeAt hpayload hid] at hafter
  obtain ⟨nested, hnested⟩ := Document.get?_overlay_of_reaching hkeys hreaches previous
  have hchecked (merged : Document) :
      (storeWithKey c key.stored).checked c.name merged = .ok merged := rfl
  simp only [Memory.Store.findAndMerge_eq_scan, hscan, Memory.Marked.splitAtMatch?, List.map_nil,
    hchecked, Memory.Store.identifiers, Memory.Store.idField_setRecords,
    Memory.Store.records_setRecords_self, hstored, List.nil_append, List.map_cons,
    List.cons.injEq, and_true] at hafter
  rw [show (storeWithKey c key.stored).idField = c.idField from rfl, hnested] at hafter
  simp [previous, Fields.get?] at hafter

/-! ## All updates and merges -/

/-- Updates keep all identifiers, and so do merges unless a dotted key leads into the
identifier field.  For every record with such a key there is a store where a merge by
identifier changes one that is stored. -/
theorem keepsIdentifiers_of_revision (c : Collection) (hdot : '.' ∉ c.idField.toList) :
    (∀ request : Request, request.operation = .update ∨ request.operation = .merge →
      ¬ request.LeadsIntoIdentifier c → request.KeepsIdentifiers c) ∧
    ∀ (record : Document) (id : Value) (key : Identifier) (fields : FieldChoice),
      record.ReachesInto c.idField → readId id = .ok key →
      key.stored.comparand.equal key.stored.comparand = true →
      ¬ (mergeAt record id fields).KeepsIdentifiers c :=
  ⟨fun _ => keepsIdentifiers_of_not_leads,
    fun _ _ _ fields hreaches hid hequal =>
      not_keepsIdentifiers_mergeAt hdot hreaches hid hequal fields⟩

theorem keepsIdentifiers_of_dotted_key :
    '.' ∉ "_id".toList ∧
    (replaceAt [("_id.x", .int32 2)] (.int32 1) default).KeepsIdentifiers ⟨"c", "_id"⟩ ∧
    ¬ (mergeAt [("_id.x", .int32 2)] (.int32 1) default).KeepsIdentifiers ⟨"c", "_id"⟩ := by
  have hdot : '.' ∉ "_id".toList := by decide
  have hall := keepsIdentifiers_of_revision ⟨"c", "_id"⟩ hdot
  refine ⟨hdot, hall.1 _ (.inl rfl) (fun hleads => nomatch hleads.1), ?_⟩
  have hreaches : Document.ReachesInto "_id" [("_id.x", .int32 2)] :=
    ⟨("_id.x", .int32 2), by simp, by decide, by decide⟩
  exact hall.2 _ (.int32 1) _ default hreaches rfl rfl

/-- The payload loses `_id` only, so the identifier 1 becomes a document. -/
theorem identifiers_of_dotted_merge :
    let c : Collection := ⟨"c", "_id"⟩
    let record : Document := [("_id", .int32 1), ("a", .int32 1)]
    let store : Memory.Store :=
      { idField := "_id", collections := [("c", [record])], freshId := .ofNat }
    let request : Request := mergeAt [("_id.x", .int32 2), ("b", .int32 3)] (.int32 1) default
    store.identifiers "c" = [some (.int32 1)] ∧
    (request.after c store).identifiers "c" = [some (.document [("x", .int32 2)])] ∧
    ¬ request.KeepsIdentifiers c := by
  refine ⟨rfl, rfl, fun hkeeps => ?_⟩
  have hsame := congrFun (hkeeps
    { idField := "_id", collections := [("c", [[("_id", .int32 1), ("a", .int32 1)]])],
      freshId := .ofNat } rfl) "c"
  have hvalues : [some (Value.document [("x", .int32 2)])] = [some (Value.int32 1)] := hsame
  cases hvalues

end Request

end DocumentStore.Collection
