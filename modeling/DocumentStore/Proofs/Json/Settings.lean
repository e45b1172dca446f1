import DocumentStore.Options

/-!
# Options read back

Options that are written as JSON are read as the options that were written.  A sort order is
written as a text, so it has to be one that its text names.
-/

namespace DocumentStore

namespace Json

/-! ## Fields of an object one after the other -/

namespace Shape

variable {σ : Type} {shape : Shape σ}

theorem readFields_cons {key name : String} {value : Json} {seen : List String}
    {state changed : σ} (hname : (shape.find? key).map Setting.name = some name)
    (hnew : seen.contains name = false)
    (hstore : (shape.find? key).map (fun setting => setting.store value state) =
      some (.ok changed))
    (fields : List (String × Json)) :
    shape.readFields seen state ((key, value) :: fields) =
      shape.readFields (name :: seen) changed fields := by
  obtain ⟨setting, hfind, rfl⟩ := Option.map_eq_some_iff.1 hname
  rw [hfind, Option.map_some, Option.some_inj] at hstore
  rw [readFields, hfind]
  simp only [hnew, Bool.false_eq_true, if_false, hstore]
  rfl

theorem store_of_read {α : Type} {read : Except ReadError α} {a : α} (h : read = .ok a)
    (change : α → σ) :
    some (do return change (← read)) = some (Except.ok (change a) : Except ReadError σ) := by
  rw [h]
  rfl

theorem read_object {fields : List (String × Json)} {initial state : σ} {seen : List String}
    (hfields : shape.readFields [] initial fields = .ok (seen, state))
    (hall : (shape.settings.find? fun setting =>
      setting.required && !seen.contains setting.name) = none) :
    shape.read initial (.object fields) = .ok state := by
  simp only [read, hfields, bind, Except.bind, hall]

end Shape

theorem readBelow_ofNat {bound n : Nat} (h : n < bound) (typeName : String) :
    readBelow bound typeName (.int n) = .ok n := by
  rw [readBelow, if_pos ⟨Int.natCast_nonneg n, Int.ofNat_lt.2 h⟩, Int.toNat_natCast]

theorem readOptional_natOrNull {count : Option Nat} (h : ∀ n ∈ count, n < UInt64.size) :
    readOptional readCount (RetrievalOptions.toJson.natOrNull count) = .ok count := by
  cases count with
  | none => rfl
  | some n =>
      have hread : readCount (.int n) = .ok n := readBelow_ofNat (h n rfl) "u64"
      change (readCount (.int n)).map some = _
      rw [hread]
      rfl

end Json

/-! ## Options -/

theorem RetrievalOptions.ofJson_toJson {options : RetrievalOptions}
    (hlimit : ∀ n ∈ options.limit, n < UInt64.size)
    (hoffset : ∀ n ∈ options.offset, n < UInt64.size)
    (hsort : ∀ order ∈ options.sort, SortOrder.ofText order.text = order) :
    ofJson options.toJson = .ok options := by
  obtain ⟨limit, offset, sort, includeCount⟩ := options
  have horder : Json.readOptional Json.readText
      ((sort.map fun sort => Json.string sort.text).getD .null) =
      .ok (sort.map SortOrder.text) := by
    cases sort <;> rfl
  have hsame : (sort.map SortOrder.text).map SortOrder.ofText = sort := by
    cases sort with
    | none => rfl
    | some order => exact congrArg some (hsort order rfl)
  have hfields : shape.readFields [] {} [("limit", toJson.natOrNull limit),
      ("offset", toJson.natOrNull offset),
      ("sort", (sort.map fun sort => Json.string sort.text).getD .null),
      ("include_count", .bool includeCount)] =
      .ok (["include_count", "sort", "offset", "limit"],
        ⟨limit, offset, (sort.map SortOrder.text).map SortOrder.ofText, includeCount⟩) := by
    have hlimit := Json.readOptional_natOrNull hlimit
    have hoffset := Json.readOptional_natOrNull hoffset
    refine (Json.Shape.readFields_cons rfl rfl
      (by exact Json.Shape.store_of_read hlimit _) _).trans ?_
    refine (Json.Shape.readFields_cons rfl rfl
      (by exact Json.Shape.store_of_read hoffset _) _).trans ?_
    refine (Json.Shape.readFields_cons rfl rfl
      (by exact Json.Shape.store_of_read horder _) _).trans ?_
    rfl
  rw [hsame] at hfields
  exact congrArg (Except.mapError _) (Json.Shape.read_object hfields rfl)

theorem CreationOptions.ofJson_toJson (options : CreationOptions) :
    ofJson options.toJson = .ok options := rfl

theorem ServiceSettings.ofJson_toJson {settings : ServiceSettings}
    (h : settings.maxConcurrency < UInt64.size) : ofJson settings.toJson = .ok settings := by
  obtain ⟨idField, maxConcurrency⟩ := settings
  have hname : Json.readText (.string idField) = .ok idField := rfl
  have hread : Json.readUnsigned "usize" (.int maxConcurrency) = .ok maxConcurrency :=
    Json.readBelow_ofNat h "usize"
  have hfields : shape.readFields [] {}
      [("id_field", .string idField), ("max_concurrency", .int maxConcurrency)] =
      .ok (["max_concurrency", "id_field"], ⟨idField, maxConcurrency⟩) := by
    refine (Json.Shape.readFields_cons rfl rfl
      (by exact Json.Shape.store_of_read hname _) _).trans ?_
    refine (Json.Shape.readFields_cons rfl rfl
      (by exact Json.Shape.store_of_read hread _) _).trans ?_
    rfl
  exact congrArg (Except.mapError _) (Json.Shape.read_object hfields rfl)

theorem SortKey.ofJson_toJson (key : SortKey) : ofJson key.toJson = .ok key := by
  rcases key with ⟨field, direction⟩
  cases direction <;> rfl

end DocumentStore
