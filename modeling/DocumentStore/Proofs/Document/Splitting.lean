import DocumentStore.Proofs.Document.Paths

/-!
# A record as one field and the rest

No key occurs twice in a document, so a field stands apart from the rest of the fields whatever
its place is.
-/

namespace DocumentStore

namespace Fields

variable {α : Type} {key : String}

theorem get?_eq_none_of_ne {fields : Fields α} (h : ∀ field ∈ fields, field.1 ≠ key) :
    get? key fields = none := by
  induction fields with
  | nil => rfl
  | cons field fields ih =>
      obtain ⟨k, value⟩ := field
      rw [get?_cons, if_neg (h (k, value) List.mem_cons_self),
        ih fun other hother => h other (List.mem_cons_of_mem _ hother)]

theorem insert_append {before : Fields α} (h : ∀ field ∈ before, field.1 ≠ key) (old new : α)
    (behind : Fields α) :
    insert key new (before ++ (key, old) :: behind) = before ++ (key, new) :: behind := by
  induction before with
  | nil => rw [List.nil_append, insert, if_pos rfl, List.nil_append]
  | cons field before ih =>
      obtain ⟨k, first⟩ := field
      rw [List.cons_append, insert, if_neg (h (k, first) List.mem_cons_self),
        ih fun other hother => h other (List.mem_cons_of_mem _ hother), List.cons_append]

theorem erase_of_ne {fields : Fields α} (h : ∀ field ∈ fields, field.1 ≠ key) :
    erase key fields = fields :=
  List.filter_eq_self.2 fun field hfield => by simpa using h field hfield

theorem erase_comm (key other : String) (fields : Fields α) :
    erase key (erase other fields) = erase other (erase key fields) := by
  rw [erase, erase, erase, erase, List.filter_filter, List.filter_filter]
  exact List.filter_congr fun field _ => Bool.and_comm _ _

theorem erase_erase_self (key : String) (fields : Fields α) :
    erase key (erase key fields) = erase key fields :=
  erase_of_ne fun _ hfield => ne_of_mem_erase hfield

theorem insertAll_of_new {fields added : Fields α} (hadded : (keys added).Nodup)
    (h : ∀ field ∈ added, ∀ other ∈ fields, other.1 ≠ field.1) :
    insertAll fields added = fields ++ added := by
  induction added generalizing fields with
  | nil => rw [List.append_nil]; rfl
  | cons field added ih =>
      obtain ⟨hfield, hrest⟩ := List.nodup_cons.1 hadded
      have hnew : insert field.1 field.2 fields = fields ++ [field] :=
        insert_of_get?_eq_none (get?_eq_none_of_ne (h field List.mem_cons_self))
      calc insertAll fields (field :: added)
          = insertAll (insert field.1 field.2 fields) added := rfl
        _ = insertAll (fields ++ [field]) added := by rw [hnew]
        _ = fields ++ [field] ++ added := by
            refine ih hrest fun other hother stored hstored => ?_
            rcases List.mem_append.1 hstored with hold | hlast
            · exact h other (List.mem_cons_of_mem _ hother) stored hold
            · rw [List.mem_singleton.1 hlast]
              exact fun hkey => hfield (hkey ▸ List.mem_map_of_mem hother)
        _ = fields ++ field :: added := by rw [List.append_assoc, List.singleton_append]

/-! ## Documents without a key twice -/

theorem nodup_keys_erase {fields : Fields α} (h : (keys fields).Nodup) (key : String) :
    (keys (erase key fields)).Nodup :=
  h.sublist (List.filter_sublist.map _)

theorem insert_perm {fields : Fields α} (h : (keys fields).Nodup) (key : String) (value : α) :
    (insert key value fields).Perm ((key, value) :: erase key fields) := by
  induction fields with
  | nil => exact .refl _
  | cons field fields ih =>
      obtain ⟨hfield, hrest⟩ := List.nodup_cons.1 h
      by_cases hkey : field.1 = key
      · have hne : ∀ other ∈ fields, other.1 ≠ key := fun other hother hother' =>
          hfield (by rw [hkey, ← hother']; exact List.mem_map_of_mem hother)
        have herase : erase key (field :: fields) = fields := by
          rw [erase, List.filter_cons_of_neg (by simp [hkey])]
          exact erase_of_ne hne
        rw [herase, insert, if_pos hkey, hkey]
      · have herase : erase key (field :: fields) = field :: erase key fields :=
          List.filter_cons_of_pos (by simpa using hkey)
        rw [herase, insert, if_neg hkey]
        exact ((ih hrest).cons field).trans (.swap _ _ _)

theorem nodup_keys_insert {fields : Fields α} (h : (keys fields).Nodup) (key : String)
    (value : α) : (keys (insert key value fields)).Nodup := by
  have hperm := (insert_perm h key value).map Prod.fst
  refine hperm.nodup_iff.2 (List.nodup_cons.2 ⟨fun hmem => ?_, nodup_keys_erase h key⟩)
  obtain ⟨field, hfield, hkey⟩ := List.mem_map.1 hmem
  exact ne_of_mem_erase hfield hkey

end Fields

namespace Document

theorem valueOf?_congr {first second : Document}
    (h : ∀ key, Fields.get? key first = Fields.get? key second) (field : String) :
    first.valueOf? field = second.valueOf? field := by
  rw [valueOf?, valueOf?]
  cases Path.ofText field with
  | nil => rfl
  | cons key rest =>
      cases rest with
      | nil => exact h key
      | cons next rest => simp only [valueAt?, h key]

/-- The record has the value under the key, and apart from it the fields of the rest, in whatever
order. -/
structure Splits (key : String) (record : Document) (value : Value) (rest : Document) : Prop where
  perm : record.Perm ((key, value) :: rest)
  others : ∀ field ∈ rest, field.1 ≠ key

variable {key : String} {record rest : Document} {value : Value}

theorem Splits.exists_append (h : record.Splits key value rest) :
    ∃ before behind, record = before ++ (key, value) :: behind ∧
      (∀ field ∈ before, field.1 ≠ key) ∧ (before ++ behind).Perm rest := by
  have hmem : (key, value) ∈ record := h.perm.symm.subset List.mem_cons_self
  obtain ⟨before, behind, rfl⟩ := List.append_of_mem hmem
  have hrest : (before ++ behind).Perm rest := (List.perm_middle.symm.trans h.perm).cons_inv
  exact ⟨before, behind, rfl,
    fun field hfield => h.others field (hrest.subset (List.mem_append_left _ hfield)), hrest⟩

theorem Splits.get? (h : record.Splits key value rest) : Fields.get? key record = some value := by
  obtain ⟨before, behind, rfl, hbefore, -⟩ := h.exists_append
  rw [Fields.get?_append, Fields.get?_eq_none_of_ne hbefore, Option.none_or, Fields.get?_cons,
    if_pos rfl]

theorem Splits.insert (h : record.Splits key value rest) (new : Value) :
    Splits key (Fields.insert key new record) new rest := by
  obtain ⟨before, behind, rfl, hbefore, hrest⟩ := h.exists_append
  rw [Fields.insert_append hbefore]
  exact ⟨List.perm_middle.trans (hrest.cons _), h.others⟩

theorem splits_insert {fields : Document} (h : (Fields.keys fields).Nodup) (key : String)
    (value : Value) :
    Splits key (Fields.insert key value fields) value (Fields.erase key fields) :=
  ⟨Fields.insert_perm h key value, fun _ hfield => Fields.ne_of_mem_erase hfield⟩

end Document

end DocumentStore
