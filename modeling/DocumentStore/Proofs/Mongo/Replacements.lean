import DocumentStore.Mongo.Write
import DocumentStore.Proofs.Collection.ReadBack

/-!
# Replacement bodies of the two stores

A body in place of a stored document goes behind the fields that are kept, and gives way to them.
Keyed on `_id`, the store in memory and the server make the same document of it.  What is kept does
not depend on an earlier body, so of several replacements the last one counts.
-/

namespace DocumentStore.Mongo

/-- Writes the fields whose keys are not there yet. -/
def fill (fields body : Document) : Document :=
  body.foldl
    (fun fields entry =>
      if Fields.contains entry.1 fields then fields else Fields.insert entry.1 entry.2 fields)
    fields

section

variable {fields body found : Document} {key idField : String}

theorem replaced_eq_fill (idField : String) (found body : Document) :
    replaced idField found body = fill (keptFields idField found) body := rfl

theorem fill_cons (fields body : Document) (key : String) (value : Value) :
    fill fields ((key, value) :: body) =
      if Fields.contains key fields then fill fields body
      else fill (Fields.insert key value fields) body := by
  rw [fill, List.foldl_cons]
  split <;> rfl

theorem get?_fill (h : Fields.contains key fields = true) (body : Document) :
    Fields.get? key (fill fields body) = Fields.get? key fields := by
  induction body generalizing fields with
  | nil => rfl
  | cons entry body ih =>
      rw [fill_cons]
      split
      · exact ih h
      · next hnew =>
        have hne : key ≠ entry.1 := fun heq => hnew (heq ▸ h)
        rw [ih (Fields.contains_insert h entry.1 entry.2), Fields.get?_insert_of_ne hne]

theorem fill_eq_append (hbody : (Fields.keys body).Nodup) :
    fill fields body = fields ++ body.filter fun entry => !Fields.contains entry.1 fields := by
  induction body generalizing fields with
  | nil => rw [List.filter_nil, List.append_nil]; rfl
  | cons entry body ih =>
      obtain ⟨hentry, hrest⟩ := List.nodup_cons.1 hbody
      rw [fill_cons]
      by_cases hin : Fields.contains entry.1 fields = true
      · rw [if_pos hin, ih hrest, List.filter_cons_of_neg (by simpa using hin)]
      · have hnone : Fields.get? entry.1 fields = none := by
          simpa [Fields.contains] using hin
        -- the key of the first entry does not come again, so that it hides none of the rest
        have hsame : ∀ other ∈ body,
            (!Fields.contains other.1 (fields ++ [entry])) = !Fields.contains other.1 fields := by
          intro other hother
          have hne : entry.1 ≠ other.1 := fun heq =>
            hentry (heq ▸ List.mem_map_of_mem (f := Prod.fst) hother)
          rw [Fields.contains, Fields.get?_append, Fields.get?_cons, if_neg hne, Fields.get?_nil,
            Option.or_none, Fields.contains]
        rw [if_neg hin, Fields.insert_of_get?_eq_none hnone, ih hrest,
          List.filter_cons_of_pos (by simpa using hin), List.filter_congr hsame,
          List.append_assoc, List.singleton_append]

/-! ## Kept fields -/

theorem keptFields_congr {other : Document}
    (hid : Fields.get? "_id" other = Fields.get? "_id" found)
    (hfield : Fields.get? idField other = Fields.get? idField found) :
    keptFields idField other = keptFields idField found := by
  simp only [keptFields, List.foldl_cons, List.foldl_nil, hid, hfield]

theorem keptFields_eq {id key : Value} (hid : Fields.get? "_id" found = some id)
    (hfield : Fields.get? idField found = some key) :
    keptFields idField found = Fields.insert idField key [("_id", id)] := by
  simp only [keptFields, List.foldl_cons, List.foldl_nil, hid, hfield]
  rfl

theorem get?_keptFields {id value : Value} (hid : Fields.get? "_id" found = some id)
    (hfield : Fields.get? idField found = some value) :
    Fields.get? "_id" (keptFields idField found) = some id ∧
      Fields.get? idField (keptFields idField found) = some value := by
  rw [keptFields_eq hid hfield]
  refine ⟨?_, Fields.get?_insert_self idField value _⟩
  by_cases h : "_id" = idField
  · subst h
    rw [Fields.get?_insert_self, ← hfield, hid]
  · rw [Fields.get?_insert_of_ne h]
    rfl

theorem get?_replaced_of_kept {id value : Value} (hid : Fields.get? "_id" found = some id)
    (hfield : Fields.get? idField found = some value) (body : Document) :
    Fields.get? "_id" (replaced idField found body) = some id ∧
      Fields.get? idField (replaced idField found body) = some value := by
  obtain ⟨hkept, hkeptField⟩ := get?_keptFields hid hfield
  rw [replaced_eq_fill, get?_fill (by rw [Fields.contains, hkept]; rfl),
    get?_fill (by rw [Fields.contains, hkeptField]; rfl)]
  exact ⟨hkept, hkeptField⟩

theorem replaced_replaced (hid : Fields.contains "_id" found = true)
    (hfield : Fields.contains idField found = true) (first last : Document) :
    replaced idField (replaced idField found first) last = replaced idField found last := by
  obtain ⟨id, hid⟩ := Option.isSome_iff_exists.1 hid
  obtain ⟨value, hfield⟩ := Option.isSome_iff_exists.1 hfield
  obtain ⟨hkept, hkeptField⟩ := get?_replaced_of_kept hid hfield first
  have hsame : keptFields idField (replaced idField found first) = keptFields idField found :=
    keptFields_congr (hkept.trans hid.symm) (hkeptField.trans hfield.symm)
  rw [replaced_eq_fill, hsame, ← replaced_eq_fill]

/-! ## Agreement -/

theorem replaced_eq_memory (hid : Fields.contains "_id" found = true)
    (hbody : (Fields.keys body).Nodup) :
    replaced "_id" found body = Memory.Store.replaced "_id" found body := by
  obtain ⟨id, hid⟩ := Option.isSome_iff_exists.1 hid
  have hkept : keptFields "_id" found = [("_id", id)] := by
    rw [keptFields_eq hid hid]
    rfl
  have hcontains : ∀ entry : String × Value,
      (!Fields.contains entry.1 [("_id", id)]) = (entry.1 != "_id") := by
    intro entry
    rw [Fields.contains, Fields.get?_cons, Fields.get?_nil]
    by_cases h : "_id" = entry.1
    · simp [h]
    · simp [h, Ne.symm h]
  calc replaced "_id" found body
      = [("_id", id)] ++ body.filter fun entry => !Fields.contains entry.1 [("_id", id)] := by
        rw [replaced_eq_fill, hkept, fill_eq_append hbody]
    _ = ("_id", id) :: Fields.erase "_id" body := by
        rw [List.filter_congr fun entry _ => hcontains entry]
        rfl
    _ = Memory.Store.replaced "_id" found body := (Collection.replaced_eq_cons hid hbody).symm

end

/-- For stores that are keyed on `_id`, a stored document and a body give the same document, entry
for entry; no key occurs twice in a body.  In both stores, whatever their identifier field, the
last of two replacements alone counts. -/
theorem replaced_agrees_and_absorbs :
    (∀ found body : Document, Fields.contains "_id" found = true → (Fields.keys body).Nodup →
      replaced "_id" found body = Memory.Store.replaced "_id" found body) ∧
    ∀ (idField : String) (found first last : Document), Fields.contains "_id" found = true →
      Fields.contains idField found = true →
      replaced idField (replaced idField found first) last = replaced idField found last ∧
      Memory.Store.replaced idField (Memory.Store.replaced idField found first) last =
        Memory.Store.replaced idField found last := by
  constructor
  · intro found body hid hbody
    exact replaced_eq_memory hid hbody
  · intro idField found first last hid hfield
    refine ⟨replaced_replaced hid hfield first last, ?_⟩
    exact Memory.Store.replaced_congr (Memory.Store.get?_replaced idField found first) last

/-- The bodies name both identifiers, and neither is changed. -/
theorem replaced_agrees_of_both_identifiers :
    let found : Document := [("key", .string "k"), ("name", .null), ("_id", .int32 7)]
    let first : Document := [("name", .string "x"), ("_id", .int32 8), ("key", .string "other")]
    let last : Document := [("age", .int32 3), ("key", .null), ("_id", .null)]
    replaced "_id" found first = Memory.Store.replaced "_id" found first ∧
    replaced "key" (replaced "key" found first) last =
      [("_id", .int32 7), ("key", .string "k"), ("age", .int32 3)] ∧
    Memory.Store.replaced "key" (Memory.Store.replaced "key" found first) last =
      [("key", .string "k"), ("age", .int32 3), ("_id", .null)] := by
  intro found first last
  obtain ⟨hmongo, hmemory⟩ := replaced_agrees_and_absorbs.2 "key" found first last rfl rfl
  refine ⟨replaced_agrees_and_absorbs.1 found first rfl (by decide), ?_, ?_⟩
  · rw [hmongo]
    rfl
  · rw [hmemory]
    rfl

end DocumentStore.Mongo
