import DocumentStore.Proofs.Document.Lens
import DocumentStore.Proofs.Document.Splitting
import DocumentStore.Proofs.Projection

/-!
# What a projection keeps

A projected record answers lookups of the selected paths, and of all that lies behind them, as the
record does.  It has nothing at a path that lies apart from every selected one.
-/

namespace DocumentStore

theorem Path.mem_restsBehind {key : String} {rest : Path} {paths : List Path} :
    rest ∈ restsBehind key paths ↔ key :: rest ∈ paths := by
  rw [restsBehind, List.mem_filterMap]
  constructor
  · rintro ⟨path, hpath, hrest⟩
    cases path with
    | nil => cases hrest
    | cons first behind =>
        dsimp only at hrest
        split at hrest
        · next hfirst =>
          rw [← hfirst, ← Option.some_inj.1 hrest]
          exact hpath
        · cases hrest
  · intro hpath
    exact ⟨key :: rest, hpath, if_pos rfl⟩

namespace Document

/-- No key occurs twice in a document, nor in one that is nested in its fields. -/
inductive Distinct : Document → Prop
  | intro {fields : Document} (keys : (Fields.keys fields).Nodup)
      (nested : ∀ key inner, (key, .document inner) ∈ fields → Distinct inner) : Distinct fields

namespace Distinct

variable {fields : Document}

theorem nodup (h : Distinct fields) : (Fields.keys fields).Nodup := by
  cases h with
  | intro keys _ => exact keys

theorem empty : Distinct [] := .intro List.nodup_nil nofun

theorem inside (h : Distinct fields) (key : String) : Distinct (nested key fields) := by
  cases h with
  | intro _ hnested =>
      rw [Document.nested]
      split
      · next inner hinner => exact hnested key inner (Fields.mem_of_get? hinner)
      · exact empty

end Distinct

/-! ## The fields of the kept part -/

theorem any_restsBehind {key : String} {paths : List Path} :
    (Path.restsBehind key paths).any List.isEmpty = true ↔ [key] ∈ paths := by
  rw [List.any_eq_true, ← Path.mem_restsBehind]
  constructor
  · rintro ⟨rest, hrest, hempty⟩
    rwa [← List.isEmpty_iff.1 hempty]
  · intro hnil
    exact ⟨[], hnil, rfl⟩

theorem keepPaths_cons_cases (paths : List Path) (key : String) (value : Value)
    (fields : Document) :
    ([key] ∈ paths ∧ keepPaths paths ((key, value) :: fields) =
      (key, value) :: keepPaths paths fields) ∨
    ([key] ∉ paths ∧ keepNested (Path.restsBehind key paths) value ≠ [] ∧
      keepPaths paths ((key, value) :: fields) =
        (key, .document (keepNested (Path.restsBehind key paths) value)) ::
          keepPaths paths fields) ∨
    ([key] ∉ paths ∧ keepNested (Path.restsBehind key paths) value = [] ∧
      keepPaths paths ((key, value) :: fields) = keepPaths paths fields) := by
  by_cases hwhole : [key] ∈ paths
  · exact .inl ⟨hwhole, keepPaths_cons_of_mem hwhole value fields⟩
  · have hrests := Bool.eq_false_iff.2 (mt any_restsBehind.1 hwhole)
    right
    cases hpart : keepNested (Path.restsBehind key paths) value with
    | nil => exact .inr ⟨hwhole, rfl, keepPaths_cons_of_dropped hrests hpart⟩
    | cons first part =>
        exact .inl ⟨hwhole, List.cons_ne_nil _ _, keepPaths_cons_of_nested hrests hpart⟩

theorem keys_keepPaths_sublist (paths : List Path) (fields : Document) :
    (Fields.keys (keepPaths paths fields)).Sublist (Fields.keys fields) := by
  induction fields with
  | nil => exact .slnil
  | cons field fields ih =>
      obtain ⟨key, value⟩ := field
      rcases keepPaths_cons_cases paths key value fields with
        ⟨-, hkept⟩ | ⟨-, -, hkept⟩ | ⟨-, -, hkept⟩
      · rw [hkept]
        exact ih.cons_cons key
      · rw [hkept]
        exact ih.cons_cons key
      · rw [hkept]
        exact ih.cons key

theorem get?_keepPaths_eq_none {key : String} {fields : Document}
    (h : key ∉ Fields.keys fields) (paths : List Path) :
    Fields.get? key (keepPaths paths fields) = none := by
  apply Fields.get?_eq_none_of_ne
  rintro field hfield rfl
  exact h ((keys_keepPaths_sublist paths fields).subset (List.mem_map_of_mem hfield))

theorem nested_cons_of_ne {key other : String} (h : other ≠ key) (value : Value)
    (fields : Document) : nested key ((other, value) :: fields) = nested key fields := by
  rw [nested, Fields.get?_cons, if_neg h, nested]

theorem nested_cons_document (key : String) (inner fields : Document) :
    nested key ((key, .document inner) :: fields) = inner := by
  rw [nested, Fields.get?_cons, if_pos rfl]

theorem keepPaths_nested_cons (paths : List Path) (key : String) (value : Value)
    (fields : Document) :
    keepPaths paths (nested key ((key, value) :: fields)) = keepNested paths value := by
  rw [nested, Fields.get?_cons, if_pos rfl]
  cases value with
  | document inner => rfl
  | _ => rfl

/-- Of the document in a field that is not kept as a whole, the paths that lead into the field
keep their part. -/
theorem nested_keepPaths {key : String} {paths : List Path} (h : [key] ∉ paths)
    {fields : Document} (hkeys : (Fields.keys fields).Nodup) :
    nested key (keepPaths paths fields) =
      keepPaths (Path.restsBehind key paths) (nested key fields) := by
  induction fields with
  | nil => rfl
  | cons field fields ih =>
      obtain ⟨other, value⟩ := field
      obtain ⟨hfresh, hrest⟩ := List.nodup_cons.1 hkeys
      by_cases hkey : other = key
      · subst hkey
        rw [keepPaths_nested_cons]
        rcases keepPaths_cons_cases paths other value fields with
          ⟨hwhole, -⟩ | ⟨-, -, hkept⟩ | ⟨-, hpart, hkept⟩
        · exact absurd hwhole h
        · rw [hkept, nested_cons_document]
        · -- No field of this key is left, as its only one is dropped.
          rw [hkept, hpart, nested, get?_keepPaths_eq_none hfresh]
      · rw [nested_cons_of_ne hkey, ← ih hrest]
        rcases keepPaths_cons_cases paths other value fields with
          ⟨-, hkept⟩ | ⟨-, -, hkept⟩ | ⟨-, -, hkept⟩
        · rw [hkept, nested_cons_of_ne hkey]
        · rw [hkept, nested_cons_of_ne hkey]
        · rw [hkept]

/-! ## Lookups in the kept part -/

/-- The induction is on the selected path: as long as it goes on, it leads into a field that is
kept in part, or some shorter path keeps the field as a whole. -/
theorem valueAt?_keepPaths {selected path : Path} {paths : List Path} (hmem : selected ∈ paths)
    (hne : selected ≠ []) (hleads : selected <+: path) {fields : Document}
    (hfields : Distinct fields) :
    valueAt? path (keepPaths paths fields) = valueAt? path fields := by
  induction selected generalizing path paths fields with
  | nil => exact absurd rfl hne
  | cons key rest ih =>
      obtain ⟨behind, rfl⟩ := hleads
      rw [List.cons_append]
      by_cases hwhole : [key] ∈ paths
      · exact valueAt?_cons_congr (get?_keepPaths hwhole fields) _
      · cases rest with
        | nil => exact absurd hmem hwhole
        | cons second rest =>
            rw [List.cons_append, valueAt?_cons_nested, valueAt?_cons_nested,
              nested_keepPaths hwhole hfields.nodup]
            exact ih (Path.mem_restsBehind.2 hmem) (List.cons_ne_nil _ _)
              (List.prefix_append _ _) (hfields.inside key)

theorem valueAt?_keepPaths_of_apart {path : Path} {paths : List Path}
    (h : ∀ selected ∈ paths, selected.Apart path) {fields : Document}
    (hfields : Distinct fields) : valueAt? path (keepPaths paths fields) = none := by
  induction path generalizing paths fields with
  | nil => rfl
  | cons key rest ih =>
      have hrests : ∀ behind ∈ Path.restsBehind key paths, behind.Apart rest := by
        intro behind hbehind
        exact Path.apart_cons_iff.1 (h _ (Path.mem_restsBehind.1 hbehind))
      cases rest with
      | nil =>
          -- A path that starts with the key would lead through the place of the key alone.
          apply Fields.get?_eq_none_of_ne
          rintro field hfield rfl
          obtain ⟨selected, hselected, hhead⟩ := exists_path_of_mem_keepPaths hfield
          obtain ⟨behind, rfl⟩ := List.head?_eq_some_iff.1 hhead
          exact Path.not_apart_nil (hrests behind (Path.mem_restsBehind.2 hselected)).symm
      | cons second rest =>
          have hwhole : [key] ∉ paths := fun hmem =>
            Path.not_apart_nil (hrests [] (Path.mem_restsBehind.2 hmem))
          rw [valueAt?_cons_nested, nested_keepPaths hwhole hfields.nodup]
          exact ih hrests (hfields.inside key)

end Document

namespace Projection

open Document

/-- A projection to a list of fields keeps what is found at these fields and nothing that lies
apart from them, with the top-level fields in their order, and projecting again changes nothing. -/
theorem project_keeps_selected (selected : List String) {record : Document}
    (h : record.Distinct) :
    (∀ field ∈ selected,
      ((fields selected).project record).valueOf? field = record.valueOf? field) ∧
    (∀ field, (∀ other ∈ selected, (Path.ofText other).Apart (Path.ofText field)) →
      ((fields selected).project record).valueOf? field = none) ∧
    (Fields.keys ((fields selected).project record)).Sublist (Fields.keys record) ∧
    (fields selected).project ((fields selected).project record) =
      (fields selected).project record := by
  refine ⟨fun field hfield => ?_, fun field hapart => ?_, keys_keepPaths_sublist _ record,
    project_project _ record⟩
  · exact valueAt?_keepPaths (List.mem_map_of_mem hfield) (Path.ofText_ne_nil field)
      (List.prefix_refl _) h
  · exact valueAt?_keepPaths_of_apart (List.forall_mem_map.2 hapart) h

/-- A field and one behind it, a path through a scalar, and one that leads into an empty document
are selected. -/
theorem project_keeps_overlapping_paths :
    let inner : Document := [("b", .document [("c", .int32 1)]), ("d", .int32 2)]
    let record : Document := [("x", .int32 0), ("a", .document inner), ("e", .document [])]
    let selected := ["a.b", "a.b.c", "x.y", "e.f"]
    record.Distinct ∧ "a.b" ∈ selected ∧
    (∀ other ∈ selected, (Path.ofText other).Apart (Path.ofText "a.d")) ∧
    ((fields selected).project record).valueOf? "a.b" = some (.document [("c", .int32 1)]) ∧
    ((fields selected).project record).valueOf? "a.d" = none ∧
    (Fields.keys ((fields selected).project record)).Sublist (Fields.keys record) := by
  intro inner record selected
  have hleaf : Distinct [("c", .int32 1)] := .intro (by decide) (by simp)
  have hinner : Distinct inner := .intro (by decide) (by simpa [inner] using hleaf)
  have hrecord : record.Distinct := by
    refine .intro (by decide) fun key nested hnested => ?_
    obtain ⟨-, rfl⟩ | ⟨-, rfl⟩ : (key = "a" ∧ nested = inner) ∨ (key = "e" ∧ nested = []) := by
      simpa [record] using hnested
    · exact hinner
    · exact Distinct.empty
  have hselected : "a.b" ∈ selected := by decide
  have hapart : ∀ other ∈ selected, (Path.ofText other).Apart (Path.ofText "a.d") := by decide
  obtain ⟨hfound, hnone, hkeys, -⟩ := project_keeps_selected selected hrecord
  exact ⟨hrecord, hselected, hapart, hfound "a.b" hselected, hnone "a.d" hapart, hkeys⟩

end Projection

end DocumentStore
