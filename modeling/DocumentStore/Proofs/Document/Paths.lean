import DocumentStore.Path
import DocumentStore.Proofs.Text.Pieces

/-!
# Fields and the paths that write them

A key without a dot names a field, and a dotted key leads into the field of its first
segment.  Writing a path changes no field but that of its first segment.
-/

namespace DocumentStore

/-! ## Keys -/

namespace Path

theorem ofText_ne_nil (key : String) : ofText key ≠ [] := by
  simpa [ofText, Text.splitOn] using Text.splitWhere_ne_nil (· == '.') key.toList

theorem ofText_of_dotless {key : String} (h : '.' ∉ key.toList) : ofText key = [key] := by
  have hcut : ∀ c ∈ key.toList, (c == '.') = false := by
    intro c hc
    simpa using fun hdot : c = '.' => h (hdot ▸ hc)
  simp [ofText, Text.splitOn, Text.splitWhere_of_none hcut]

theorem ofText_injective {key other : String} (h : ofText key = ofText other) : key = other := by
  have hpieces := (List.map_inj_right fun _ _ => String.ofList_inj.1).1 h
  have htexts := Text.intercalate_splitOn '.' key.toList
  rw [hpieces, Text.intercalate_splitOn] at htexts
  exact (String.toList_inj.1 htexts).symm

theorem eq_of_ofText_eq_singleton {key field : String} (h : ofText key = [field]) :
    key = field := by
  obtain ⟨piece, hsplit, hpiece⟩ := List.map_eq_singleton_iff.1 h
  have hkey := Text.eq_of_splitWhere_eq_singleton hsplit
  rw [← hpiece, hkey, String.ofList_toList]

theorem exists_of_head?_ofText {key field : String} (hne : key ≠ field)
    (hhead : (ofText key).head? = some field) :
    ∃ second rest, ofText key = field :: second :: rest := by
  cases hpath : ofText key with
  | nil => exact absurd hpath (ofText_ne_nil key)
  | cons first path =>
      rw [hpath, List.head?_cons, Option.some_inj] at hhead
      subst hhead
      cases path with
      | nil => exact absurd (eq_of_ofText_eq_singleton hpath) hne
      | cons second rest => exact ⟨second, rest, rfl⟩

end Path

/-! ## Writes to many fields -/

namespace Fields

variable {α : Type}

theorem get?_insertAll_of_ne {key : String} {fields added : Fields α}
    (h : ∀ field ∈ added, field.1 ≠ key) :
    get? key (insertAll fields added) = get? key fields := by
  induction added generalizing fields with
  | nil => rfl
  | cons field added ih =>
      have hfield : key ≠ field.1 := (h field (by simp)).symm
      have hadded : ∀ other ∈ added, other.1 ≠ key := fun other ho => h other (by simp [ho])
      calc get? key (insertAll fields (field :: added))
          = get? key (insertAll (insert field.1 field.2 fields) added) := rfl
        _ = get? key (insert field.1 field.2 fields) := ih hadded
        _ = get? key fields := get?_insert_of_ne hfield _ _

theorem insert_of_get? {key : String} {value : α} {fields : Fields α}
    (h : get? key fields = some value) : insert key value fields = fields := by
  induction fields with
  | nil => simp at h
  | cons field fields ih =>
      rw [get?_cons] at h
      rw [insert]
      split
      · next hkey =>
        rw [if_pos hkey] at h
        rw [← Option.some_inj.1 h]
      · next hkey =>
        rw [if_neg hkey] at h
        rw [ih h]

theorem insert_insert_self (key : String) (first last : α) (fields : Fields α) :
    insert key last (insert key first fields) = insert key last fields := by
  induction fields with
  | nil => simp [insert]
  | cons field fields ih => by_cases h : field.1 = key <;> simp [insert, h, ih]

theorem erase_insert_self (key : String) (value : α) (fields : Fields α) :
    erase key (insert key value fields) = erase key fields := by
  induction fields with
  | nil => simp [insert, erase]
  | cons field fields ih =>
      unfold erase at ih
      by_cases h : field.1 = key <;> simp [insert, erase, h, ih]

theorem keys_insert {key : String} {fields : Fields α} (h : contains key fields = true)
    (value : α) : keys (insert key value fields) = keys fields := by
  induction fields with
  | nil => cases h
  | cons field fields ih =>
      rw [insert]
      split
      · rfl
      · next hkey =>
        rw [contains, get?_cons, if_neg hkey] at h
        exact congrArg (field.1 :: ·) (ih h)

theorem insert_of_get?_eq_none {key : String} {value : α} {fields : Fields α}
    (h : get? key fields = none) : insert key value fields = fields ++ [(key, value)] := by
  induction fields with
  | nil => rfl
  | cons field fields ih =>
      rw [get?_cons] at h
      rw [insert]
      split
      · next hkey =>
        rw [if_pos hkey] at h
        cases h
      · next hkey =>
        rw [if_neg hkey] at h
        rw [ih h, List.cons_append]

theorem contains_insert {key : String} {fields : Fields α} (h : contains key fields = true)
    (other : String) (value : α) : contains key (insert other value fields) = true := by
  by_cases hkey : key = other
  · rw [hkey, contains, get?_insert_self]
    rfl
  · rw [contains, get?_insert_of_ne hkey]
    exact h

theorem mem_of_mem_insert {key : String} {value : α} {fields : Fields α} {field : String × α}
    (h : field ∈ insert key value fields) (hne : field.1 ≠ key) : field ∈ fields := by
  induction fields with
  | nil =>
      have hfield : field = (key, value) := by simpa [insert] using h
      exact absurd (congrArg Prod.fst hfield) hne
  | cons first fields ih =>
      rw [insert] at h
      split at h
      · next hkey =>
        rcases List.mem_cons.1 h with rfl | hmem
        · exact absurd hkey hne
        · exact List.mem_cons_of_mem _ hmem
      · rcases List.mem_cons.1 h with rfl | hmem
        · exact List.mem_cons_self
        · exact List.mem_cons_of_mem _ (ih hmem)

theorem mem_of_mem_erase {key : String} {fields : Fields α} {field : String × α}
    (h : field ∈ erase key fields) : field ∈ fields :=
  (List.mem_filter.1 h).1

theorem ne_of_mem_erase {key : String} {fields : Fields α} {field : String × α}
    (h : field ∈ erase key fields) : field.1 ≠ key := by
  simpa using (List.mem_filter.1 h).2

theorem mem_of_get? {key : String} {value : α} {fields : Fields α}
    (h : get? key fields = some value) : (key, value) ∈ fields := by
  induction fields with
  | nil => simp at h
  | cons field fields ih =>
      rw [get?_cons] at h
      split at h
      · next hkey => simp [← hkey, ← Option.some_inj.1 h]
      · exact List.mem_cons_of_mem _ (ih h)

theorem ne_of_get?_eq_none {key : String} {fields : Fields α} (h : get? key fields = none)
    {field : String × α} (hmem : field ∈ fields) : field.1 ≠ key := by
  induction fields with
  | nil => cases hmem
  | cons first fields ih =>
      rw [get?_cons] at h
      split at h
      · cases h
      · next hne =>
        rcases List.mem_cons.1 hmem with rfl | hmem
        · exact hne
        · exact ih h hmem

end Fields

/-! ## Writes to paths -/

namespace Document

theorem valueOf?_of_dotless {field : String} (h : '.' ∉ field.toList) (fields : Document) :
    valueOf? field fields = Fields.get? field fields := by
  rw [valueOf?, Path.ofText_of_dotless h, valueAt?]

theorem setAt_cons_cons (value : Value) (key second : String) (rest : Path) (fields : Document) :
    setAt value (key :: second :: rest) fields =
      Fields.insert key (.document (setAt value (second :: rest) (nested key fields))) fields :=
  rfl

theorem get?_setAt_of_ne {key : String} {path : Path} (h : path.head? ≠ some key)
    (value : Value) (fields : Document) :
    Fields.get? key (setAt value path fields) = Fields.get? key fields := by
  match path with
  | [] => rfl
  | [first] =>
      have hfirst : key ≠ first := fun hkey => h (by simp [hkey])
      exact Fields.get?_insert_of_ne hfirst _ _
  | first :: second :: rest =>
      have hfirst : key ≠ first := fun hkey => h (by simp [hkey])
      exact Fields.get?_insert_of_ne hfirst _ _

theorem contains_setAt {key : String} {fields : Document}
    (h : Fields.contains key fields = true) (value : Value) (path : Path) :
    Fields.contains key (setAt value path fields) = true := by
  match path with
  | [] => exact h
  | [first] => exact Fields.contains_insert h first value
  | first :: _ :: _ => exact Fields.contains_insert h first _

theorem contains_overlay {key : String} {fields : Document}
    (h : Fields.contains key fields = true) (patch : Document) :
    Fields.contains key (overlay fields patch) = true := by
  induction patch generalizing fields with
  | nil => exact h
  | cons entry patch ih => exact ih (contains_setAt h entry.2 (Path.ofText entry.1))

/-- No key of the patch names the field or leads into it. -/
def Spares (field : String) (patch : Document) : Prop :=
  ∀ entry ∈ patch, (Path.ofText entry.1).head? ≠ some field

/-- A dotted key of the patch leads into the field. -/
def ReachesInto (field : String) (patch : Document) : Prop :=
  ∃ entry ∈ patch, entry.1 ≠ field ∧ (Path.ofText entry.1).head? = some field

instance (field : String) (patch : Document) : Decidable (patch.Spares field) :=
  inferInstanceAs (Decidable (∀ entry ∈ patch, _))

instance (field : String) (patch : Document) : Decidable (patch.ReachesInto field) :=
  inferInstanceAs (Decidable (∃ entry ∈ patch, _))

theorem get?_overlay_of_spares {field : String} {patch : Document} (h : patch.Spares field)
    (fields : Document) :
    Fields.get? field (overlay fields patch) = Fields.get? field fields := by
  induction patch generalizing fields with
  | nil => rfl
  | cons entry patch ih =>
      have hentry := h entry (by simp)
      have hpatch : Spares field patch := fun other ho => h other (by simp [ho])
      calc Fields.get? field (overlay fields (entry :: patch))
          = Fields.get? field (overlay (setAt entry.2 (Path.ofText entry.1) fields) patch) := rfl
        _ = Fields.get? field (setAt entry.2 (Path.ofText entry.1) fields) := ih hpatch _
        _ = Fields.get? field fields := get?_setAt_of_ne hentry _ _

/-- A write behind a field leaves a document in it. -/
theorem get?_setAt_of_reaching {key field : String} (hne : key ≠ field)
    (hhead : (Path.ofText key).head? = some field) (value : Value) (fields : Document) :
    ∃ nested, Fields.get? field (setAt value (Path.ofText key) fields) =
      some (.document nested) := by
  obtain ⟨second, rest, hpath⟩ := Path.exists_of_head?_ofText hne hhead
  rw [hpath, setAt_cons_cons]
  exact ⟨_, Fields.get?_insert_self _ _ _⟩

theorem get?_overlay_of_document {field : String} {patch : Document}
    (hkeys : ∀ entry ∈ patch, entry.1 ≠ field) {fields nested : Document}
    (h : Fields.get? field fields = some (.document nested)) :
    ∃ nested', Fields.get? field (overlay fields patch) = some (.document nested') := by
  induction patch generalizing fields nested with
  | nil => exact ⟨nested, h⟩
  | cons entry patch ih =>
      have hentry := hkeys entry (by simp)
      have hpatch : ∀ other ∈ patch, other.1 ≠ field := fun other ho => hkeys other (by simp [ho])
      by_cases hhead : (Path.ofText entry.1).head? = some field
      · obtain ⟨nested', h'⟩ := get?_setAt_of_reaching hentry hhead entry.2 fields
        exact ih hpatch h'
      · exact ih hpatch ((get?_setAt_of_ne hhead entry.2 fields).trans h)

theorem get?_overlay_of_reaching {field : String} {patch : Document}
    (hkeys : ∀ entry ∈ patch, entry.1 ≠ field) (h : patch.ReachesInto field)
    (fields : Document) :
    ∃ nested, Fields.get? field (overlay fields patch) = some (.document nested) := by
  induction patch generalizing fields with
  | nil => obtain ⟨entry, hmem, -⟩ := h; simp at hmem
  | cons entry patch ih =>
      have hentry := hkeys entry (by simp)
      have hpatch : ∀ other ∈ patch, other.1 ≠ field := fun other ho => hkeys other (by simp [ho])
      by_cases hhead : (Path.ofText entry.1).head? = some field
      · obtain ⟨nested, hnested⟩ := get?_setAt_of_reaching hentry hhead entry.2 fields
        exact get?_overlay_of_document hpatch hnested
      · obtain ⟨other, hmem, hne, hother⟩ := h
        rcases List.mem_cons.1 hmem with rfl | hmem
        · exact absurd hother hhead
        · exact ih hpatch ⟨other, hmem, hne, hother⟩ _

end Document

end DocumentStore
