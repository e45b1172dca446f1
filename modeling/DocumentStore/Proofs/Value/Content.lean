import DocumentStore.Proofs.Document.MappedFields
import DocumentStore.Proofs.Value.ComparandEquality
import DocumentStore.Proofs.Value.Keys
import Mathlib.Data.List.Zip

/-!
# Values of the same content

Two values agree when they have the same kind and content.  Numbers agree whatever their kind is,
arrays element by element, and documents field by field in any order.  This is the equality of the
store wherever it compares every part of the two; of the kinds that it does not compare it takes
all values for null.
-/

namespace DocumentStore

/-! ## Items and fields of comparands -/

namespace Comparand

theorem equalItems_iff {items others : List Comparand} :
    equalItems items others = true ↔
      List.Forall₂ (fun a b => equal a b = true) items others := by
  induction items generalizing others with
  | nil => cases others <;> simp [equalItems]
  | cons item items ih => cases others <;> simp [equalItems, ih]

end Comparand

namespace Value

theorem comparandItems_eq_map (items : List Value) :
    comparandItems items = items.map comparand := by
  induction items with
  | nil => rfl
  | cons item items ih => rw [comparandItems, ih, List.map_cons]

theorem comparandFields_eq_map (fields : List (String × Value)) :
    comparandFields fields = fields.map fun field => (field.1, field.2.comparand) := by
  induction fields with
  | nil => rfl
  | cons field fields ih => rw [comparandFields, ih, List.map_cons]

/-! ## Induction on the members of a value -/

/-- Neither an array nor a document. -/
def IsLeaf : Value → Prop
  | .array _ | .document _ => False
  | _ => True

theorem byMembers {motive : Value → Prop} (hleaf : ∀ value, value.IsLeaf → motive value)
    (harray : ∀ items, (∀ item ∈ items, motive item) → motive (.array items))
    (hdocument : ∀ fields : Document, (∀ field ∈ fields, motive field.2) →
      motive (.document fields)) : ∀ value, motive value
  | .array items => harray items fun item _hitem => byMembers hleaf harray hdocument item
  | .document fields =>
    hdocument fields fun field _hfield => byMembers hleaf harray hdocument field.2
  | .null | .bool _ | .int32 _ | .int64 _ | .double _ | .decimal _ | .string _ | .objectId _
  | .dateTime _ | .timestamp _ _ | .binary _ _ | .symbol _ | .javaScript _
  | .regularExpression _ _ | .pointer _ _ | .undefined | .minKey | .maxKey
  | .scopedJavaScript _ _ => hleaf _ trivial
termination_by value => sizeOf value
decreasing_by
  · have hsize := List.sizeOf_lt_of_mem _hitem
    simp only [array.sizeOf_spec]
    omega
  · have hsize := List.sizeOf_lt_of_mem _hfield
    have hpair : sizeOf field = 1 + sizeOf field.1 + sizeOf field.2 := rfl
    simp only [document.sizeOf_spec]
    omega

/-! ## Agreement -/

/-- The kinds of values that have no parts and are no numbers. -/
def IsAtom : Value → Prop
  | .int32 _ | .int64 _ | .double _ | .array _ | .document _ | .scopedJavaScript _ _ => False
  | _ => True

/-- The same kind and content: two integers are the same number whatever their width, an integer
and a double are compared as doubles, and the fields of documents may have any order. -/
inductive Agrees : Value → Value → Prop
  | atom {value : Value} (h : value.IsAtom) : Agrees value value
  | integers {a b : Value} {n : Int} (ha : a.integer? = some n) (hb : b.integer? = some n) :
      Agrees a b
  | doubles {x y : Binary64} (h : x.equal y = true) : Agrees (.double x) (.double y)
  | integerDouble {a : Value} {n : Int} {x : Binary64} (ha : a.integer? = some n)
      (h : (Binary64.ofInt n).equal x = true) : Agrees a (.double x)
  | doubleInteger {b : Value} {n : Int} {x : Binary64} (hb : b.integer? = some n)
      (h : (Binary64.ofInt n).equal x = true) : Agrees (.double x) b
  | arrays {items others : List Value} (hlength : items.length = others.length)
      (hitems : ∀ a b, (a, b) ∈ items.zip others → Agrees a b) :
      Agrees (.array items) (.array others)
  | documents {fields others : Document} (hlength : fields.length = others.length)
      (hkeys : ∀ key ∈ Fields.keys fields, Fields.contains key others = true)
      (hfields : ∀ key a b, (key, a) ∈ fields → Fields.get? key others = some b → Agrees a b) :
      Agrees (.document fields) (.document others)
  | scopes {code : String} {scope other : Document}
      (h : Agrees (.document scope) (.document other)) :
      Agrees (.scopedJavaScript code scope) (.scopedJavaScript code other)

theorem comparand_of_integer? {value : Value} {n : Int} (h : value.integer? = some n) :
    value.comparand = .int n := by
  cases value with
  | int32 | int64 => exact congrArg Comparand.int (Option.some.inj h)
  | _ => cases h

theorem equal_of_agrees {a b : Value} (h : a.Agrees b) :
    a.comparand.equal b.comparand = true := by
  induction h with
  | @atom value h =>
      cases value with
      | int32 | int64 | double | array | document | scopedJavaScript => exact h.elim
      | _ => simp [comparand, Comparand.equal]
  | integers ha hb =>
      rw [comparand_of_integer? ha, comparand_of_integer? hb]
      simp [Comparand.equal]
  | doubles h => exact h
  | integerDouble ha h =>
      rw [comparand_of_integer? ha]
      exact h
  | doubleInteger hb h =>
      rw [comparand_of_integer? hb]
      exact h
  | arrays hlength _ ih =>
      rw [comparand, comparand, Comparand.equal, Comparand.equalItems_iff, comparandItems_eq_map,
        comparandItems_eq_map, List.forall₂_map_left_iff, List.forall₂_map_right_iff,
        List.forall₂_iff_zip]
      exact ⟨hlength, fun hmem => ih _ _ hmem⟩
  | @documents fields others hlength hkeys _ ih =>
      rw [comparand, comparand, Comparand.equal, comparandFields_eq_map, comparandFields_eq_map,
        Bool.and_eq_true, beq_iff_eq, List.length_map, List.length_map, Comparand.equalFields_iff]
      refine ⟨hlength, fun key _ hmem => ?_⟩
      obtain ⟨⟨_, value⟩, hfield, hsame⟩ := List.mem_map.1 hmem
      obtain ⟨rfl, rfl⟩ := Prod.mk.inj hsame
      obtain ⟨found, hfound⟩ :=
        Option.isSome_iff_exists.1 (hkeys _ (List.mem_map_of_mem hfield))
      exact ⟨found.comparand, by rw [Fields.get?_map, hfound]; rfl, ih _ _ _ hfield hfound⟩
  | scopes => rfl

/-! ## What the store compares -/

/-- At every depth there are only kinds that the store compares by their content. -/
inductive IsCompared : Value → Prop
  | null : IsCompared .null
  | scalar {value : Value} (h : value.IsScalar) : IsCompared value
  | array {items : List Value} (h : ∀ item ∈ items, IsCompared item) : IsCompared (.array items)
  | document {fields : Document} (h : ∀ field ∈ fields, IsCompared field.2) :
      IsCompared (.document fields)

mutual

/-- The value with null in the place of each part that the store does not compare. -/
def compared : Value → Value
  | .array items => .array (comparedItems items)
  | .document fields => .document (comparedFields fields)
  | .bool b => .bool b
  | .int32 n => .int32 n
  | .int64 n => .int64 n
  | .double x => .double x
  | .string s => .string s
  | .objectId id => .objectId id
  | .dateTime ms => .dateTime ms
  | _ => .null

def comparedItems : List Value → List Value
  | [] => []
  | item :: items => item.compared :: comparedItems items

def comparedFields : List (String × Value) → List (String × Value)
  | [] => []
  | (key, value) :: fields => (key, value.compared) :: comparedFields fields

end

theorem comparedItems_eq_map (items : List Value) : comparedItems items = items.map compared := by
  induction items with
  | nil => rfl
  | cons item items ih => rw [comparedItems, ih, List.map_cons]

theorem comparedFields_eq_map (fields : List (String × Value)) :
    comparedFields fields = fields.map fun field => (field.1, field.2.compared) := by
  induction fields with
  | nil => rfl
  | cons field fields ih => rw [comparedFields, ih, List.map_cons]

theorem isCompared_compared (value : Value) : value.compared.IsCompared := by
  induction value using byMembers with
  | hleaf value h =>
      cases value with
      | array | document => exact h.elim
      | bool | int32 | int64 | double | string | objectId | dateTime => exact .scalar trivial
      | _ => exact .null
  | harray items ih =>
      rw [compared, comparedItems_eq_map]
      exact .array (List.forall_mem_map.2 ih)
  | hdocument fields ih =>
      rw [compared, comparedFields_eq_map]
      exact .document (List.forall_mem_map.2 ih)

theorem comparand_compared (value : Value) : value.compared.comparand = value.comparand := by
  induction value using byMembers with
  | hleaf value h =>
      cases value with
      | array | document => exact h.elim
      | _ => rfl
  | harray items ih =>
      rw [compared, comparand, comparand, comparedItems_eq_map, comparandItems_eq_map,
        comparandItems_eq_map, List.map_map]
      exact congrArg Comparand.list (List.map_congr_left ih)
  | hdocument fields ih =>
      rw [compared, comparand, comparand, comparedFields_eq_map, comparandFields_eq_map,
        comparandFields_eq_map, List.map_map]
      refine congrArg Comparand.document (List.map_congr_left fun field hfield => ?_)
      exact congrArg (Prod.mk field.1) (ih field hfield)

theorem agrees_of_equal_scalar {a b : Value} (ha : a.IsScalar)
    (h : a.comparand.equal b.comparand = true) : a.Agrees b := by
  cases a with
  | int32 m | int64 m =>
      cases b with
      | int32 n | int64 n => exact .integers rfl (congrArg some (beq_iff_eq.1 h).symm)
      | double x => exact .integerDouble rfl h
      | _ => cases h
  | double x =>
      cases b with
      | int32 n | int64 n => exact .doubleInteger rfl h
      | double y => exact .doubles h
      | _ => cases h
  | bool x =>
      cases b with
      | bool y =>
          rw [show x = y from beq_iff_eq.1 h]
          exact .atom trivial
      | _ => cases h
  | string x =>
      cases b with
      | string y =>
          rw [show x = y from beq_iff_eq.1 h]
          exact .atom trivial
      | _ => cases h
  | objectId x =>
      cases b with
      | objectId y =>
          rw [show x = y from beq_iff_eq.1 h]
          exact .atom trivial
      | _ => cases h
  | dateTime x =>
      cases b with
      | dateTime y =>
          rw [show x = y from Int64.toInt_inj.1 (beq_iff_eq.1 h)]
          exact .atom trivial
      | _ => cases h
  | _ => exact ha.elim

theorem isScalar_of_equal {a b : Value} (hb : b.IsScalar)
    (h : a.comparand.equal b.comparand = true) : a.IsScalar := by
  cases b with
  | bool | int32 | int64 | double | string | objectId | dateTime =>
      cases a <;> trivial
  | _ => exact hb.elim

theorem agrees_of_equal {a b : Value} (ha : a.IsCompared) (hb : b.IsCompared)
    (h : a.comparand.equal b.comparand = true) : a.Agrees b := by
  induction ha generalizing b with
  | scalar ha => exact agrees_of_equal_scalar ha h
  | null =>
      cases hb with
      | null => exact .atom trivial
      | scalar hb => exact (isScalar_of_equal hb h).elim
      | array | document => cases h
  | @array items _ ih =>
      cases hb with
      | @array others hothers =>
          rw [comparand, comparand, Comparand.equal, Comparand.equalItems_iff,
            comparandItems_eq_map, comparandItems_eq_map, List.forall₂_map_left_iff,
            List.forall₂_map_right_iff, List.forall₂_iff_zip] at h
          refine .arrays h.1 fun a b hmem => ?_
          obtain ⟨hitem, hother⟩ := List.of_mem_zip hmem
          exact ih a hitem (hothers b hother) (h.2 hmem)
      | scalar hb => exact (isScalar_of_equal hb h).elim
      | null | document => cases h
  | @document fields _ ih =>
      cases hb with
      | @document others hothers =>
          rw [comparand, comparand, Comparand.equal, comparandFields_eq_map,
            comparandFields_eq_map, Bool.and_eq_true, beq_iff_eq, List.length_map, List.length_map,
            Comparand.equalFields_iff] at h
          have hfound {key : String} {a : Value} (hmem : (key, a) ∈ fields) :
              ∃ b, Fields.get? key others = some b ∧ a.comparand.equal b.comparand = true := by
            obtain ⟨found, hget, hequal⟩ := h.2 key a.comparand (List.mem_map.2 ⟨_, hmem, rfl⟩)
            rw [Fields.get?_map, Option.map_eq_some_iff] at hget
            obtain ⟨b, hb, rfl⟩ := hget
            exact ⟨b, hb, hequal⟩
          refine .documents h.1 (fun key hkey => ?_) fun key a b hmem hb => ?_
          · obtain ⟨⟨_, a⟩, hmem, rfl⟩ := List.mem_map.1 hkey
            obtain ⟨b, hb, -⟩ := hfound hmem
            exact Option.isSome_iff_exists.2 ⟨b, hb⟩
          · obtain ⟨b', hb', hequal⟩ := hfound hmem
            rw [hb, Option.some_inj] at hb'
            rw [← hb'] at hequal
            exact ih _ hmem (hothers _ (Fields.mem_of_get? hb)) hequal
      | scalar hb => exact (isScalar_of_equal hb h).elim
      | null | array => cases h

/-- The equality of the store is agreement of what it compares. -/
theorem equal_iff_agrees_compared (a b : Value) :
    a.comparand.equal b.comparand = true ↔ a.compared.Agrees b.compared := by
  rw [← comparand_compared a, ← comparand_compared b]
  exact ⟨agrees_of_equal (isCompared_compared a) (isCompared_compared b), equal_of_agrees⟩

end Value

end DocumentStore
