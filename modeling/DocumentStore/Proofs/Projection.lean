import DocumentStore.Collection.Access
import DocumentStore.Proofs.Document.Paths

/-!
# Projected records

A projection keeps what it has kept before, and the projection of a collection keeps the
identifier of every record.
-/

namespace DocumentStore

namespace Document

theorem keepPaths_cons_of_kept {paths : List Path} {key : String} {value : Value}
    {fields : List (String × Value)}
    (h : (Path.restsBehind key paths).any List.isEmpty = true) :
    keepPaths paths ((key, value) :: fields) = (key, value) :: keepPaths paths fields := by
  rw [keepPaths, if_pos h]

theorem keepPaths_cons_of_nested {paths : List Path} {key : String} {value : Value}
    {fields part : List (String × Value)} {field : String × Value}
    (h : (Path.restsBehind key paths).any List.isEmpty = false)
    (hpart : keepNested (Path.restsBehind key paths) value = field :: part) :
    keepPaths paths ((key, value) :: fields) =
      (key, .document (field :: part)) :: keepPaths paths fields := by
  rw [keepPaths, h, hpart]
  rfl

theorem keepPaths_cons_of_dropped {paths : List Path} {key : String} {value : Value}
    {fields : List (String × Value)}
    (h : (Path.restsBehind key paths).any List.isEmpty = false)
    (hpart : keepNested (Path.restsBehind key paths) value = []) :
    keepPaths paths ((key, value) :: fields) = keepPaths paths fields := by
  rw [keepPaths, h, hpart]
  rfl

theorem keepPaths_eq_flatMap (paths : List Path) (fields : Document) :
    keepPaths paths fields = fields.flatMap fun field => keepPaths paths [field] := by
  induction fields with
  | nil => rfl
  | cons field fields ih =>
      obtain ⟨key, value⟩ := field
      rw [List.flatMap_cons, ← ih]
      cases hkept : (Path.restsBehind key paths).any List.isEmpty with
      | true => rw [keepPaths_cons_of_kept hkept, keepPaths_cons_of_kept hkept]; rfl
      | false =>
          cases hpart : keepNested (Path.restsBehind key paths) value with
          | nil =>
              rw [keepPaths_cons_of_dropped hkept hpart, keepPaths_cons_of_dropped hkept hpart]
              rfl
          | cons first part =>
              rw [keepPaths_cons_of_nested hkept hpart, keepPaths_cons_of_nested hkept hpart]
              rfl

theorem keepPaths_perm (paths : List Path) {fields others : Document} (h : fields.Perm others) :
    (keepPaths paths fields).Perm (keepPaths paths others) := by
  rw [keepPaths_eq_flatMap, keepPaths_eq_flatMap paths others]
  exact h.flatMap_right _

theorem exists_of_mem_keepPaths {paths : List Path} {fields : Document} {field : String × Value}
    (h : field ∈ keepPaths paths fields) : ∃ other ∈ fields, other.1 = field.1 := by
  rw [keepPaths_eq_flatMap, List.mem_flatMap] at h
  obtain ⟨⟨key, value⟩, hother, hfield⟩ := h
  refine ⟨(key, value), hother, ?_⟩
  cases hkept : (Path.restsBehind key paths).any List.isEmpty with
  | true =>
      rw [keepPaths_cons_of_kept hkept] at hfield
      rw [List.mem_singleton.1 hfield]
  | false =>
      cases hpart : keepNested (Path.restsBehind key paths) value with
      | nil =>
          rw [keepPaths_cons_of_dropped hkept hpart] at hfield
          cases hfield
      | cons first part =>
          rw [keepPaths_cons_of_nested hkept hpart] at hfield
          rw [List.mem_singleton.1 hfield]

mutual

theorem keepPaths_keepPaths : ∀ (paths : List Path) (fields : List (String × Value)),
    keepPaths paths (keepPaths paths fields) = keepPaths paths fields
  | paths, [] => rfl
  | paths, (key, value) :: fields => by
    have hrest := keepPaths_keepPaths paths fields
    cases hkept : (Path.restsBehind key paths).any List.isEmpty with
    | true =>
        rw [keepPaths_cons_of_kept hkept, keepPaths_cons_of_kept hkept, hrest]
    | false =>
        have hnested := keepNested_document_keepNested (Path.restsBehind key paths) value
        cases hpart : keepNested (Path.restsBehind key paths) value with
        | nil => rw [keepPaths_cons_of_dropped hkept hpart, hrest]
        | cons field part =>
            rw [hpart] at hnested
            rw [keepPaths_cons_of_nested hkept hpart, keepPaths_cons_of_nested hkept hnested,
              hrest]

theorem keepNested_document_keepNested : ∀ (paths : List Path) (value : Value),
    keepNested paths (.document (keepNested paths value)) = keepNested paths value
  | paths, value => by
    cases value with
    | document fields => exact keepPaths_keepPaths paths fields
    | _ => rfl

end

mutual

theorem keepPaths_nil : ∀ (fields : List (String × Value)), keepPaths [] fields = []
  | [] => rfl
  | (key, value) :: fields => by
    have hpart : keepNested (Path.restsBehind key []) value = [] := keepNested_nil value
    rw [keepPaths_cons_of_dropped rfl hpart, keepPaths_nil fields]

theorem keepNested_nil (value : Value) : keepNested [] value = [] := by
  cases value with
  | document fields => exact keepPaths_nil fields
  | _ => rfl

end

theorem exists_path_of_mem_keepPaths {paths : List Path} {fields : Document}
    {field : String × Value} (h : field ∈ keepPaths paths fields) :
    ∃ path ∈ paths, path.head? = some field.1 := by
  obtain ⟨key, value⟩ := field
  rw [keepPaths_eq_flatMap, List.mem_flatMap] at h
  obtain ⟨⟨other, stored⟩, -, hkept⟩ := h
  obtain ⟨original, horiginal, hkey⟩ := exists_of_mem_keepPaths hkept
  rw [List.mem_singleton.1 horiginal] at hkey
  change other = key at hkey
  cases hrests : Path.restsBehind other paths with
  | nil =>
      -- without a rest behind the key neither the field nor a part of it is kept
      rw [keepPaths_cons_of_dropped (by rw [hrests]; rfl) (by rw [hrests, keepNested_nil])] at hkept
      cases hkept
  | cons rest rests =>
      have hrest : rest ∈ Path.restsBehind other paths := hrests ▸ List.mem_cons_self
      obtain ⟨path, hpath, hfirst⟩ := List.mem_filterMap.1 hrest
      refine ⟨path, hpath, ?_⟩
      split at hfirst
      · cases hfirst
      · next first behind =>
        split at hfirst
        · next heq => rw [List.head?_cons, heq, hkey]
        · cases hfirst

theorem keepPaths_cons_of_mem {key : String} {paths : List Path} (h : [key] ∈ paths)
    (value : Value) (fields : Document) :
    keepPaths paths ((key, value) :: fields) = (key, value) :: keepPaths paths fields := by
  have hempty : [] ∈ Path.restsBehind key paths :=
    List.mem_filterMap.2 ⟨[key], h, if_pos rfl⟩
  exact keepPaths_cons_of_kept (List.any_eq_true.2 ⟨[], hempty, rfl⟩)

theorem get?_keepPaths {key : String} {paths : List Path} (h : [key] ∈ paths)
    (fields : Document) : Fields.get? key (keepPaths paths fields) = Fields.get? key fields := by
  induction fields with
  | nil => rfl
  | cons field fields ih =>
      obtain ⟨k, value⟩ := field
      rw [Fields.get?_cons]
      split
      · next hkey =>
        subst hkey
        rw [keepPaths_cons_of_mem h, Fields.get?_cons, if_pos rfl]
      · next hkey =>
        cases hkept : (Path.restsBehind k paths).any List.isEmpty with
        | true => rw [keepPaths_cons_of_kept hkept, Fields.get?_cons, if_neg hkey, ih]
        | false =>
            cases hpart : keepNested (Path.restsBehind k paths) value with
            | nil => rw [keepPaths_cons_of_dropped hkept hpart, ih]
            | cons first part =>
                rw [keepPaths_cons_of_nested hkept hpart, Fields.get?_cons, if_neg hkey, ih]

end Document

namespace Projection

theorem project_project (projection : Projection) (record : Document) :
    projection.project (projection.project record) = projection.project record := by
  cases projection with
  | all => rfl
  | fields paths => exact Document.keepPaths_keepPaths _ _

theorem project_perm (projection : Projection) {record other : Document} (h : record.Perm other) :
    (projection.project record).Perm (projection.project other) := by
  cases projection with
  | all => exact h
  | fields paths => exact Document.keepPaths_perm _ h

theorem exists_of_mem_project {projection : Projection} {record : Document}
    {field : String × Value} (h : field ∈ projection.project record) :
    ∃ other ∈ record, other.1 = field.1 := by
  cases projection with
  | all => exact ⟨field, h, rfl⟩
  | fields paths => exact Document.exists_of_mem_keepPaths h

theorem mem_addNew {selected names : List String} {name : String} (h : name ∈ selected) :
    name ∈ addNew selected names := by
  induction names generalizing selected with
  | nil => exact h
  | cons next names ih =>
      rw [addNew]
      split
      · exact ih h
      · exact ih (List.mem_append_left _ h)

theorem mem_of_mem_addNew {selected names : List String} {name : String}
    (h : name ∈ addNew selected names) : name ∈ selected ∨ name ∈ names := by
  induction names generalizing selected with
  | nil => exact .inl h
  | cons next names ih =>
      rw [addNew] at h
      split at h
      · exact (ih h).imp_right (List.mem_cons_of_mem _)
      · rcases ih h with hselected | hnames
        · rcases List.mem_append.1 hselected with hold | hnext
          · exact .inl hold
          · exact .inr (List.mem_singleton.1 hnext ▸ List.mem_cons_self)
        · exact .inr (List.mem_cons_of_mem _ hnames)

theorem key_of_mem_project {idField : String} (hdot : '.' ∉ idField.toList)
    (choice : FieldChoice) (record : Document) :
    choice.chosen = [] ∨ "*" ∈ choice.chosen ∨
    ∀ entry ∈ (ofChoice idField choice).project record, entry.1 = idField ∨
      ∃ name ∈ choice.chosen, (Path.ofText name).head? = some entry.1 := by
  rw [ofChoice]
  split
  · next hall =>
    rcases Bool.or_eq_true_iff.1 hall with hnone | hstar
    · exact .inl (List.isEmpty_iff.1 hnone)
    · exact .inr (.inl (List.contains_iff_mem.1 hstar))
  · refine .inr (.inr fun entry hentry => ?_)
    obtain ⟨path, hpath, hhead⟩ := Document.exists_path_of_mem_keepPaths hentry
    obtain ⟨name, hname, rfl⟩ := List.mem_map.1 hpath
    rcases mem_of_mem_addNew hname with hid | hchosen
    · rw [List.mem_singleton.1 hid, Path.ofText_of_dotless hdot, List.head?_cons,
        Option.some_inj] at hhead
      exact .inl hhead.symm
    · exact .inr ⟨name, hchosen, hhead⟩

end Projection

@[simp] theorem Collection.shown_project {c : Collection} (projection : Projection)
    (record : Document) :
    c.shown projection (projection.project record) = c.shown projection record := by
  rw [shown, shown, Projection.project_project]

theorem Collection.projection_cases {c : Collection} (hdot : '.' ∉ c.idField.toList)
    (fields : FieldChoice) :
    c.projection fields = .all ∨
      ∃ paths, c.projection fields = .fields paths ∧ [c.idField] ∈ paths.map Path.ofText := by
  rw [Collection.projection, Projection.ofChoice]
  split
  · exact .inl rfl
  · refine .inr ⟨_, rfl, List.mem_map.2 ⟨c.idField, ?_, Path.ofText_of_dotless hdot⟩⟩
    exact Projection.mem_addNew (List.mem_singleton_self _)

theorem Collection.get?_project {c : Collection} (hdot : '.' ∉ c.idField.toList)
    (fields : FieldChoice) (record : Document) :
    Fields.get? c.idField ((c.projection fields).project record) =
      Fields.get? c.idField record := by
  rcases projection_cases hdot fields with hall | ⟨paths, hpaths, hmem⟩
  · rw [hall]
    rfl
  · rw [hpaths]
    exact Document.get?_keepPaths hmem record

theorem Collection.project_cons_id {c : Collection} (hdot : '.' ∉ c.idField.toList)
    (fields : FieldChoice) (id : Value) (rest : Document) :
    (c.projection fields).project ((c.idField, id) :: rest) =
      (c.idField, id) :: (c.projection fields).project rest := by
  rcases projection_cases hdot fields with hall | ⟨paths, hpaths, hmem⟩
  · rw [hall]
    rfl
  · rw [hpaths]
    exact Document.keepPaths_cons_of_mem hmem id rest

end DocumentStore
