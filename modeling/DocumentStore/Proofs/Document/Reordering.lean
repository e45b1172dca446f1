import DocumentStore.Proofs.Document.Paths

/-!
# Documents up to the order of their fields

Two writes to different fields agree up to the place where a new field goes.  Neither fields nor
the documents nested in them keep this place when writes go in another order.
-/

namespace DocumentStore.Document

/-- The same fields with the same values, in another order here or in a document nested in one of
the fields.  Fields of one key keep their order, so every lookup has the same answer. -/
inductive Reordered : Document → Document → Prop where
  | nil : Reordered [] []
  | cons (field : String × Value) {fields others : Document} (h : Reordered fields others) :
      Reordered (field :: fields) (field :: others)
  | inside (key : String) {first second fields others : Document} (hinner : Reordered first second)
      (h : Reordered fields others) :
      Reordered ((key, .document first) :: fields) ((key, .document second) :: others)
  | swap {first second : String × Value} (hne : first.1 ≠ second.1) (fields : Document) :
      Reordered (first :: second :: fields) (second :: first :: fields)
  | trans {first second third : Document} (h : Reordered first second)
      (h' : Reordered second third) : Reordered first third

namespace Reordered

variable {fields others first second : Document}

theorem refl (fields : Document) : Reordered fields fields := by
  induction fields with
  | nil => exact .nil
  | cons field fields ih => exact .cons field ih

theorem of_eq (h : fields = others) : Reordered fields others := h ▸ .refl fields

theorem symm (h : Reordered fields others) : Reordered others fields := by
  induction h with
  | nil => exact .nil
  | cons field _ ih => exact .cons field ih
  | inside key _ _ ihinner ih => exact .inside key ihinner ih
  | swap hne fields => exact .swap hne.symm fields
  | trans _ _ ih ih' => exact ih'.trans ih

/-- A lookup finds the same value, or two documents that are reordered in turn. -/
theorem get? (h : Reordered fields others) (key : String) :
    Fields.get? key fields = Fields.get? key others ∨
      ∃ inner inner', Fields.get? key fields = some (.document inner) ∧
        Fields.get? key others = some (.document inner') ∧ Reordered inner inner' := by
  induction h with
  | nil => exact .inl rfl
  | cons field _ ih =>
      rw [Fields.get?_cons, Fields.get?_cons]
      split
      · exact .inl rfl
      · exact ih
  | inside other hinner _ _ ih =>
      rw [Fields.get?_cons, Fields.get?_cons]
      split
      · exact .inr ⟨_, _, rfl, rfl, hinner⟩
      · exact ih
  | @swap first second hne fields =>
      left
      obtain ⟨key₁, value₁⟩ := first
      obtain ⟨key₂, value₂⟩ := second
      by_cases hfirst : key₁ = key
      · have hsecond : ¬ key₂ = key := fun hsecond => hne (hfirst.trans hsecond.symm)
        simp only [Fields.get?_cons, if_pos hfirst, if_neg hsecond]
      · simp only [Fields.get?_cons, if_neg hfirst]
  | trans _ _ ih ih' =>
      rcases ih with hsame | ⟨inner, middle, hinner, hmiddle, hin⟩
      · rw [hsame]
        exact ih'
      · right
        rcases ih' with hsame | ⟨middle', inner', hmiddle', hinner', hin'⟩
        · exact ⟨inner, middle, hinner, hsame ▸ hmiddle, hin⟩
        · rw [hmiddle, Option.some_inj, Value.document.injEq] at hmiddle'
          subst hmiddle'
          exact ⟨inner, inner', hinner, hinner', hin.trans hin'⟩

theorem nested (h : Reordered fields others) (key : String) :
    Reordered (fields.nested key) (others.nested key) := by
  rcases h.get? key with hsame | ⟨inner, inner', hinner, hinner', hin⟩
  · exact .of_eq (by rw [Document.nested, Document.nested, hsame])
  · rw [Document.nested, Document.nested, hinner, hinner']
    exact hin

/-! ## Writes to one field -/

theorem insert (h : Reordered fields others) (key : String) (value : Value) :
    Reordered (Fields.insert key value fields) (Fields.insert key value others) := by
  induction h with
  | nil => exact .refl _
  | cons field h ih =>
      rw [Fields.insert, Fields.insert]
      split
      · exact .cons _ h
      · exact .cons _ ih
  | inside other hinner h _ ih =>
      rw [Fields.insert, Fields.insert]
      split
      · exact .cons _ h
      · exact .inside other hinner ih
  | @swap first second hne fields =>
      by_cases hfirst : first.1 = key
      · have hsecond : ¬ second.1 = key := fun hsecond => hne (hfirst.trans hsecond.symm)
        simp only [Fields.insert, if_pos hfirst, if_neg hsecond]
        refine .swap ?_ fields
        exact hne
      · by_cases hsecond : second.1 = key
        · simp only [Fields.insert, if_neg hfirst, if_pos hsecond]
          refine .swap ?_ fields
          exact hne
        · simp only [Fields.insert, if_neg hfirst, if_neg hsecond]
          exact .swap hne _
  | trans _ _ ih ih' => exact ih.trans ih'

theorem insert_document (h : Reordered first second) (key : String) (fields : Document) :
    Reordered (Fields.insert key (.document first) fields)
      (Fields.insert key (.document second) fields) := by
  induction fields with
  | nil => exact .inside key h .nil
  | cons field fields ih =>
      rw [Fields.insert, Fields.insert]
      split
      · exact .inside _ h (.refl fields)
      · exact .cons field ih

end Reordered

theorem insert_comm {key other : String} (hne : key ≠ other) (value otherValue : Value)
    (fields : Document) :
    Reordered (Fields.insert key value (Fields.insert other otherValue fields))
      (Fields.insert other otherValue (Fields.insert key value fields)) := by
  induction fields with
  | nil =>
      simp only [Fields.insert, if_neg hne, if_neg hne.symm]
      exact .swap hne.symm []
  | cons field fields ih =>
      by_cases hkey : field.1 = key
      · have hother : ¬ field.1 = other := fun hother => hne (hkey.symm.trans hother)
        simp only [Fields.insert, if_pos hkey, if_neg hother]
        exact .refl _
      · by_cases hother : field.1 = other
        · simp only [Fields.insert, if_neg hkey, if_pos hother]
          exact .refl _
        · simp only [Fields.insert, if_neg hkey, if_neg hother]
          exact .cons field ih

/-! ## Writes to paths -/

theorem Reordered.setAt {fields others : Document} (h : Reordered fields others) (value : Value)
    (path : Path) :
    Reordered (Document.setAt value path fields) (Document.setAt value path others) := by
  induction path generalizing fields others with
  | nil => exact h
  | cons key path ih =>
      cases path with
      | nil => exact h.insert key value
      | cons second rest =>
          rw [setAt_cons_cons, setAt_cons_cons]
          exact ((ih (h.nested key)).insert_document key fields).trans (h.insert key _)

/-- A write is one of the field of its first segment, and reads no other field. -/
theorem exists_setAt_cons (value : Value) (key : String) (rest : Path) :
    ∃ written : Document → Value, ∀ fields, setAt value (key :: rest) fields =
      Fields.insert key (written (nested key fields)) fields := by
  cases rest with
  | nil => exact ⟨fun _ => value, fun _ => rfl⟩
  | cons second rest =>
      exact ⟨fun inner => .document (setAt value (second :: rest) inner), fun _ => rfl⟩

theorem nested_insert_of_ne {key other : String} (hne : key ≠ other) (value : Value)
    (fields : Document) : nested key (Fields.insert other value fields) = nested key fields := by
  rw [nested, nested, Fields.get?_insert_of_ne hne]

theorem nested_insert_self (key : String) (inner fields : Document) :
    nested key (Fields.insert key (.document inner) fields) = inner := by
  rw [nested, Fields.get?_insert_self]

theorem setAt_comm {path other : Path} (h : ¬ path <+: other) (h' : ¬ other <+: path)
    (value otherValue : Value) (fields : Document) :
    Reordered (setAt value path (setAt otherValue other fields))
      (setAt otherValue other (setAt value path fields)) := by
  induction path generalizing other fields with
  | nil => exact absurd List.nil_prefix h
  | cons key rest ih =>
      cases other with
      | nil => exact absurd List.nil_prefix h'
      | cons key' rest' =>
          by_cases hkey : key = key'
          · -- A path of one segment would be a prefix of the other one.
            subst hkey
            rw [List.cons_prefix_cons, not_and] at h h'
            cases rest with
            | nil => exact absurd List.nil_prefix (h rfl)
            | cons second rest =>
                cases rest' with
                | nil => exact absurd List.nil_prefix (h' rfl)
                | cons second' rest' =>
                    simp only [setAt_cons_cons, nested_insert_self, Fields.insert_insert_self]
                    exact (ih (h rfl) (h' rfl) (nested key fields)).insert_document key fields
          · obtain ⟨written, hwritten⟩ := exists_setAt_cons value key rest
            obtain ⟨written', hwritten'⟩ := exists_setAt_cons otherValue key' rest'
            simp only [hwritten, hwritten', nested_insert_of_ne hkey,
              nested_insert_of_ne (Ne.symm hkey)]
            exact insert_comm hkey _ _ fields

/-! ## Patches -/

def PathsApart (patch other : Document) : Prop :=
  ∀ entry ∈ patch, ∀ entry' ∈ other, ¬ Path.ofText entry.1 <+: Path.ofText entry'.1 ∧
    ¬ Path.ofText entry'.1 <+: Path.ofText entry.1

instance (patch other : Document) : Decidable (patch.PathsApart other) :=
  inferInstanceAs (Decidable (∀ entry ∈ patch, ∀ entry' ∈ other, _))

theorem PathsApart.symm {patch other : Document} (h : patch.PathsApart other) :
    other.PathsApart patch :=
  fun entry hentry entry' hentry' => (h entry' hentry' entry hentry).symm

theorem Reordered.overlay {fields others : Document} (h : Reordered fields others)
    (patch : Document) : Reordered (fields.overlay patch) (others.overlay patch) := by
  induction patch generalizing fields others with
  | nil => exact h
  | cons entry patch ih => exact ih (h.setAt entry.2 (Path.ofText entry.1))

theorem overlay_setAt {patch : Document} {path : Path}
    (h : ∀ entry ∈ patch, ¬ path <+: Path.ofText entry.1 ∧ ¬ Path.ofText entry.1 <+: path)
    (value : Value) (fields : Document) :
    Reordered (overlay (setAt value path fields) patch)
      (setAt value path (overlay fields patch)) := by
  induction patch generalizing fields with
  | nil => exact .refl _
  | cons entry patch ih =>
      obtain ⟨hfirst, hsecond⟩ := h entry List.mem_cons_self
      have hrest := ih fun other hother => h other (List.mem_cons_of_mem _ hother)
      have hswap := (setAt_comm hsecond hfirst entry.2 value fields).overlay patch
      exact hswap.trans (hrest (setAt entry.2 (Path.ofText entry.1) fields))

theorem overlay_comm {patch other : Document} (h : patch.PathsApart other) (fields : Document) :
    Reordered (overlay (overlay fields other) patch) (overlay (overlay fields patch) other) := by
  induction patch generalizing fields with
  | nil => exact .refl _
  | cons entry patch ih =>
      have hentry := overlay_setAt (h entry List.mem_cons_self) entry.2 fields
      have hrest := ih fun entry' hentry' => h entry' (List.mem_cons_of_mem _ hentry')
      exact (hentry.symm.overlay patch).trans (hrest (setAt entry.2 (Path.ofText entry.1) fields))

end DocumentStore.Document
