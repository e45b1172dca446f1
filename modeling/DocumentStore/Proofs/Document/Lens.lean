import DocumentStore.Proofs.Document.Reordering

/-!
# Reading after writing

Paths read and write a document like a lens.  What is written is read back at its path, a write
leaves alone every path that lies apart from its own, and of two writes to a path the last one
counts.  A patch is a row of such writes.
-/

namespace DocumentStore

/-! ## Texts with a dot -/

namespace Path

theorem ofText_append_dot (front back : String) :
    ofText (front ++ "." ++ back) = ofText front ++ ofText back := by
  have htext : (front ++ "." ++ back).toList = front.toList ++ '.' :: back.toList := by
    simp [String.toList_append]
  rw [ofText, htext, Text.splitOn_append_cons, List.map_append]
  rfl

/-- Neither path leads to the place of the other, or through it. -/
def Apart (path other : Path) : Prop := ¬ path <+: other ∧ ¬ other <+: path

instance (path other : Path) : Decidable (Apart path other) :=
  inferInstanceAs (Decidable (_ ∧ _))

variable {path other : Path}

theorem Apart.symm (h : Apart path other) : Apart other path := ⟨h.2, h.1⟩

theorem not_apart_nil : ¬ Apart [] path := fun h => h.1 List.nil_prefix

theorem apart_cons_iff {key : String} : Apart (key :: path) (key :: other) ↔ Apart path other := by
  rw [Apart, Apart, List.cons_prefix_cons, List.cons_prefix_cons]
  simp

end Path

namespace Document

/-! ## Reading one field at a time -/

theorem valueAt?_empty (path : Path) : valueAt? path [] = none := by
  match path with
  | [] | [_] | _ :: _ :: _ => rfl

theorem valueAt?_cons_nested (key second : String) (rest : Path) (fields : Document) :
    valueAt? (key :: second :: rest) fields = valueAt? (second :: rest) (nested key fields) := by
  rw [valueAt?, nested]
  · split
    · rfl
    · exact (valueAt?_empty _).symm
  · exact List.cons_ne_nil second rest

theorem valueAt?_cons_congr {key : String} {fields others : Document}
    (h : Fields.get? key fields = Fields.get? key others) (rest : Path) :
    valueAt? (key :: rest) fields = valueAt? (key :: rest) others := by
  cases rest with
  | nil => exact h
  | cons second rest =>
      rw [valueAt?_cons_nested, valueAt?_cons_nested, nested, nested, h]

/-! ## One write -/

/-- A name with a dot is written behind what stands before its first dot, where a document is put
unless there is one. -/
theorem setAt_ofText_of_dotted {first : String} (h : '.' ∉ first.toList) (rest : String)
    (value : Value) (fields : Document) :
    setAt value (Path.ofText (first ++ "." ++ rest)) fields =
      Fields.insert first (.document (setAt value (Path.ofText rest) (nested first fields)))
        fields := by
  rw [Path.ofText_append_dot, Path.ofText_of_dotless h]
  obtain ⟨second, behind, hrest⟩ := List.exists_cons_of_ne_nil (Path.ofText_ne_nil rest)
  rw [hrest]
  exact setAt_cons_cons value first second behind fields

theorem valueAt?_setAt_self {path : Path} (h : path ≠ []) (value : Value) (fields : Document) :
    valueAt? path (setAt value path fields) = some value := by
  induction path generalizing fields with
  | nil => exact absurd rfl h
  | cons key rest ih =>
      cases rest with
      | nil => exact Fields.get?_insert_self key value fields
      | cons second rest =>
          rw [valueAt?_cons_nested, setAt_cons_cons, nested_insert_self]
          exact ih (List.cons_ne_nil _ _) _

theorem valueAt?_setAt_of_apart {path other : Path} (h : path.Apart other) (value : Value)
    (fields : Document) : valueAt? other (setAt value path fields) = valueAt? other fields := by
  induction path generalizing other fields with
  | nil => exact absurd h Path.not_apart_nil
  | cons key rest ih =>
      cases other with
      | nil => exact absurd h.symm Path.not_apart_nil
      | cons key' rest' =>
          by_cases hkey : key = key'
          · subst hkey
            have hrest : Path.Apart rest rest' := Path.apart_cons_iff.1 h
            -- Neither path ends here, as paths apart differ before one of them ends.
            cases rest with
            | nil => exact absurd hrest Path.not_apart_nil
            | cons second rest =>
                cases rest' with
                | nil => exact absurd hrest.symm Path.not_apart_nil
                | cons second' rest' =>
                    rw [valueAt?_cons_nested, valueAt?_cons_nested, setAt_cons_cons,
                      nested_insert_self]
                    exact ih hrest _
          · apply valueAt?_cons_congr
            apply get?_setAt_of_ne
            simpa using hkey

theorem setAt_setAt (first last : Value) (path : Path) (fields : Document) :
    setAt last path (setAt first path fields) = setAt last path fields := by
  induction path generalizing fields with
  | nil => rfl
  | cons key rest ih =>
      cases rest with
      | nil => exact Fields.insert_insert_self key first last fields
      | cons second rest =>
          rw [setAt_cons_cons, setAt_cons_cons, setAt_cons_cons, nested_insert_self, ih,
            Fields.insert_insert_self]

/-! ## A patch -/

theorem overlay_cons (entry : String × Value) (patch fields : Document) :
    overlay fields (entry :: patch) =
      overlay (setAt entry.2 (Path.ofText entry.1) fields) patch := rfl

theorem valueOf?_overlay_of_apart {field : String} {patch : Document}
    (h : ∀ entry ∈ patch, (Path.ofText entry.1).Apart (Path.ofText field)) (fields : Document) :
    valueOf? field (overlay fields patch) = valueOf? field fields := by
  induction patch generalizing fields with
  | nil => rfl
  | cons entry patch ih =>
      rw [overlay_cons, ih fun other hother => h other (List.mem_cons_of_mem _ hother)]
      exact valueAt?_setAt_of_apart (h entry List.mem_cons_self) _ _

theorem valueOf?_overlay_of_last {entry : String × Value} {behind : Document}
    (h : ∀ other ∈ behind, (Path.ofText other.1).Apart (Path.ofText entry.1))
    (before fields : Document) :
    valueOf? entry.1 (overlay fields (before ++ entry :: behind)) = some entry.2 := by
  have hrow : overlay fields (before ++ entry :: behind) =
      overlay (overlay fields before) (entry :: behind) := List.foldl_append
  rw [hrow, overlay_cons, valueOf?_overlay_of_apart h]
  exact valueAt?_setAt_self (Path.ofText_ne_nil entry.1) _ _

/-- Names of fields read and write a document like a lens, and so does a patch: it leaves alone
every name that lies apart from its keys, and a key has its value unless a later one leads to its
place or through it.  What writing under a name with dots does, one dot after the other, says
`setAt_ofText_of_dotted`. -/
theorem valueOf?_lens (written read : String) (value last : Value) (patch fields : Document) :
    (fields.setAt value (Path.ofText written)).valueOf? written = some value ∧
    ((Path.ofText written).Apart (Path.ofText read) →
      (fields.setAt value (Path.ofText written)).valueOf? read = fields.valueOf? read) ∧
    (fields.setAt value (Path.ofText written)).setAt last (Path.ofText written) =
      fields.setAt last (Path.ofText written) ∧
    ((∀ entry ∈ patch, (Path.ofText entry.1).Apart (Path.ofText read)) →
      (fields.overlay patch).valueOf? read = fields.valueOf? read) ∧
    ∀ before entry behind, patch = before ++ entry :: behind →
      (∀ other ∈ behind, (Path.ofText other.1).Apart (Path.ofText entry.1)) →
      (fields.overlay patch).valueOf? entry.1 = some entry.2 := by
  refine ⟨valueAt?_setAt_self (Path.ofText_ne_nil written) value fields,
    fun hapart => valueAt?_setAt_of_apart hapart value fields,
    setAt_setAt value last (Path.ofText written) fields,
    fun hpatch => valueOf?_overlay_of_apart hpatch fields, ?_⟩
  rintro before entry behind rfl hbehind
  exact valueOf?_overlay_of_last hbehind before fields

/-- The patch puts documents in the place of a null, under a name with an empty segment. -/
theorem valueOf?_lens_of_overlapping_keys :
    let fields : Document := [("a", .int32 5), ("b", .document [("c", .int32 7)])]
    let behind : Document := [("b.d", .int32 2)]
    let patch : Document := ("a", .null) :: ("a..x", .int32 1) :: behind
    (Path.ofText "a..x").Apart (Path.ofText "b.c") ∧
    (∀ entry ∈ patch, (Path.ofText entry.1).Apart (Path.ofText "b.c")) ∧
    (∀ other ∈ behind, (Path.ofText other.1).Apart (Path.ofText "a..x")) ∧
    (fields.setAt (.int32 1) (Path.ofText "a..x")).valueOf? "b.c" = some (.int32 7) ∧
    (fields.overlay patch).valueOf? "b.c" = some (.int32 7) ∧
    (fields.overlay patch).valueOf? "a..x" = some (.int32 1) := by
  intro fields behind patch
  have hread : (Path.ofText "a..x").Apart (Path.ofText "b.c") := by decide
  have hpatch : ∀ entry ∈ patch, (Path.ofText entry.1).Apart (Path.ofText "b.c") := by decide
  have hbehind : ∀ other ∈ behind, (Path.ofText other.1).Apart (Path.ofText "a..x") := by decide
  have hfield : fields.valueOf? "b.c" = some (.int32 7) := rfl
  obtain ⟨-, hset, -, hoverlay, hlast⟩ :=
    valueOf?_lens "a..x" "b.c" (.int32 1) .null patch fields
  exact ⟨hread, hpatch, hbehind, (hset hread).trans hfield, (hoverlay hpatch).trans hfield,
    hlast [("a", .null)] ("a..x", .int32 1) behind rfl hbehind⟩

end Document

end DocumentStore
