import DocumentStore.Proofs.Document.Paths
import DocumentStore.Value.Comparand
import Mathlib.Data.List.Perm.Subperm

/-!
# Symmetry of the equality that the store compares by

Equality of documents looks for the fields of the first one in the second.  It is symmetric
where the keys of every document are distinct: the two have the same number of fields, so
the keys of the second are those of the first.
-/

namespace DocumentStore

theorem Binary64.equal_comm (x y : Binary64) : x.equal y = y.equal x := by
  have hnan : (x.isNaN || y.isNaN) = (y.isNaN || x.isNaN) := Bool.or_comm _ _
  have hkey : compare x.key y.key = .eq ↔ compare y.key x.key = .eq := by
    rw [Int.compare_eq_eq, Int.compare_eq_eq, eq_comm]
  rw [Bool.eq_iff_iff, equal, equal, compare?, compare?, hnan]
  split
  · rfl
  · simpa using hkey

namespace Fields

variable {α β : Type}

theorem get?_of_mem {key : String} {value : α} {fields : Fields α} (hkeys : (keys fields).Nodup)
    (h : (key, value) ∈ fields) : get? key fields = some value := by
  induction fields with
  | nil => cases h
  | cons field fields ih =>
      obtain ⟨hfresh, hkeys⟩ := List.nodup_cons.1 hkeys
      rw [get?_cons]
      rcases List.mem_cons.1 h with hhead | hmem
      · rw [← hhead, if_pos rfl]
      · have hne : field.1 ≠ key := by
          intro heq
          exact hfresh (List.mem_map.2 ⟨(key, value), hmem, heq.symm⟩)
        rw [if_neg hne]
        exact ih hkeys hmem

/-- Distinct keys that all occur in a list of the same length are all of its keys. -/
theorem keys_subset_of_length {fields : Fields α} {other : Fields β}
    (hkeys : (keys fields).Nodup) (hsub : keys fields ⊆ keys other)
    (hlength : fields.length = other.length) : keys other ⊆ keys fields := by
  have hle : (keys other).length ≤ (keys fields).length := by simp [keys, hlength]
  have hperm := (hkeys.subperm hsub).perm_of_length_le hle
  exact hperm.symm.subset

end Fields

namespace Comparand

mutual

/-- The keys of every document in the comparand are distinct. -/
def WellKeyed : Comparand → Prop
  | .list items => WellKeyedItems items
  | .document fields => (Fields.keys fields).Nodup ∧ WellKeyedFields fields
  | _ => True

def WellKeyedItems : List Comparand → Prop
  | [] => True
  | item :: items => WellKeyed item ∧ WellKeyedItems items

def WellKeyedFields : List (String × Comparand) → Prop
  | [] => True
  | (_, value) :: fields => WellKeyed value ∧ WellKeyedFields fields

end

theorem wellKeyed_of_mem {key : String} {value : Comparand} {fields : List (String × Comparand)}
    (h : WellKeyedFields fields) (hmem : (key, value) ∈ fields) : WellKeyed value := by
  induction fields with
  | nil => cases hmem
  | cons field fields ih =>
      rcases List.mem_cons.1 hmem with hhead | htail
      · rw [← hhead] at h
        exact h.1
      · exact ih h.2 htail

theorem equalFields_iff {fields : List (String × Comparand)} {other : Fields Comparand} :
    equalFields fields other = true ↔
      ∀ key value, (key, value) ∈ fields →
        ∃ found, Fields.get? key other = some found ∧ equal value found = true := by
  induction fields with
  | nil => simp [equalFields]
  | cons field fields ih =>
      rw [equalFields, Bool.and_eq_true, ih]
      constructor
      · rintro ⟨hhead, htail⟩ key value hmem
        rcases List.mem_cons.1 hmem with heq | hmem
        · cases heq
          split at hhead
          · next found hfound => exact ⟨found, hfound, hhead⟩
          · cases hhead
        · exact htail key value hmem
      · intro hall
        refine ⟨?_, fun key value hmem => hall key value (List.mem_cons_of_mem _ hmem)⟩
        obtain ⟨found, hfound, hequal⟩ := hall field.1 field.2 List.mem_cons_self
        rw [hfound]
        exact hequal

mutual

theorem equal_symm : ∀ {a b : Comparand}, a.WellKeyed → b.WellKeyed → equal a b = true →
    equal b a = true
  | .list items, .list others, ha, hb, h => equalItems_symm ha hb h
  | .document fields, .document others, ha, hb, h => by
    obtain ⟨hkeys, hfields⟩ := ha
    obtain ⟨hothers, hvalues⟩ := hb
    rw [equal, Bool.and_eq_true, beq_iff_eq] at h
    obtain ⟨hlength, hequal⟩ := h
    have hfound := equalFields_iff.1 hequal
    have hsub : Fields.keys fields ⊆ Fields.keys others := by
      intro key hkey
      obtain ⟨⟨_, value⟩, hmem, rfl⟩ := List.mem_map.1 hkey
      obtain ⟨found, hget, -⟩ := hfound _ value hmem
      exact List.mem_map.2 ⟨_, Fields.mem_of_get? hget, rfl⟩
    -- Both have the same number of fields, so each key of the other is a key of this one.
    have hback := Fields.keys_subset_of_length hkeys hsub hlength
    rw [equal, Bool.and_eq_true, beq_iff_eq]
    refine ⟨hlength.symm, equalFields_iff.2 fun key other hother => ?_⟩
    obtain ⟨⟨_, value⟩, hmem, rfl⟩ := List.mem_map.1 (hback (List.mem_map.2 ⟨_, hother, rfl⟩))
    obtain ⟨found, hget, hequal⟩ := hfound _ value hmem
    have hsame : found = other := by
      rw [Fields.get?_of_mem hothers hother] at hget
      exact (Option.some.inj hget).symm
    rw [hsame] at hequal
    exact ⟨value, Fields.get?_of_mem hkeys hmem,
      equal_symm_of_mem hfields hmem (wellKeyed_of_mem hvalues hother) hequal⟩
  | .null, b, _, _, h | .bool _, b, _, _, h | .int _, b, _, _, h | .double _, b, _, _, h
  | .text _, b, _, _, h | .objectId _, b, _, _, h | .dateTime _, b, _, _, h => by
    cases b <;> simp_all [equal, Binary64.equal_comm]

theorem equalItems_symm : ∀ {as bs : List Comparand}, WellKeyedItems as → WellKeyedItems bs →
    equalItems as bs = true → equalItems bs as = true
  | [], [], _, _, _ => rfl
  | _ :: _, _ :: _, has, hbs, h => by
    rw [equalItems, Bool.and_eq_true] at h ⊢
    exact ⟨equal_symm has.1 hbs.1 h.1, equalItems_symm has.2 hbs.2 h.2⟩

theorem equal_symm_of_mem : ∀ {fields : List (String × Comparand)} {key : String}
    {value other : Comparand}, WellKeyedFields fields → (key, value) ∈ fields →
    other.WellKeyed → equal value other = true → equal other value = true
  | (_, first) :: fields, key, value, other, hfields, hmem, hother, h => by
    rcases List.mem_cons.1 hmem with hhead | htail
    · obtain ⟨-, hvalue⟩ := Prod.mk.inj hhead
      rw [hvalue] at h ⊢
      exact equal_symm hfields.1 hother h
    · exact equal_symm_of_mem hfields.2 htail hother h

end

theorem equal_comm {a b : Comparand} (ha : a.WellKeyed) (hb : b.WellKeyed) :
    equal a b = equal b a :=
  Bool.eq_iff_iff.2 ⟨equal_symm ha hb, equal_symm hb ha⟩

end Comparand

end DocumentStore
