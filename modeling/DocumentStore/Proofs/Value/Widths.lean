import DocumentStore.Proofs.Value.Content
import DocumentStore.Value.Display

/-!
# Values with wide integers

Every integer of a value can be written with 64 bits.  Neither what the store compares nor the text
of the value tells the width.
-/

namespace DocumentStore

namespace Value

mutual

/-- The value with each integer of 32 bits, at whatever depth, as the same one of 64 bits. -/
def widened : Value → Value
  | .int32 n => .int64 n.toInt64
  | .array items => .array (widenedItems items)
  | .document fields => .document (widenedFields fields)
  | .scopedJavaScript code scope => .scopedJavaScript code (widenedFields scope)
  | value => value

def widenedItems : List Value → List Value
  | [] => []
  | item :: items => item.widened :: widenedItems items

def widenedFields : List (String × Value) → List (String × Value)
  | [] => []
  | (key, value) :: fields => (key, value.widened) :: widenedFields fields

end

theorem widenedItems_eq_map (items : List Value) : widenedItems items = items.map widened := by
  induction items with
  | nil => rfl
  | cons item items ih => rw [widenedItems, ih, List.map_cons]

theorem widenedFields_eq_map (fields : List (String × Value)) :
    widenedFields fields = fields.map fun field => (field.1, field.2.widened) := by
  induction fields with
  | nil => rfl
  | cons field fields ih => rw [widenedFields, ih, List.map_cons]

theorem displayItems_eq_map (items : List Value) : displayItems items = items.map display := by
  induction items with
  | nil => rfl
  | cons item items ih => rw [displayItems, ih, List.map_cons]

theorem displayFields_eq_map (fields : List (String × Value)) :
    displayFields fields = fields.map fun field => quoted field.1 ++ ": " ++ field.2.display := by
  induction fields with
  | nil => rfl
  | cons field fields ih => rw [displayFields, ih, List.map_cons]

theorem comparand_widened (value : Value) : value.widened.comparand = value.comparand := by
  induction value using byMembers with
  | hleaf value h =>
      cases value with
      | int32 n => exact congrArg Comparand.int n.toInt_toInt64
      | array | document => exact h.elim
      | _ => rfl
  | harray items ih =>
      rw [widened, comparand, comparand, widenedItems_eq_map, comparandItems_eq_map,
        comparandItems_eq_map, List.map_map]
      exact congrArg Comparand.list (List.map_congr_left ih)
  | hdocument fields ih =>
      rw [widened, comparand, comparand, widenedFields_eq_map, comparandFields_eq_map,
        comparandFields_eq_map, List.map_map]
      refine congrArg Comparand.document (List.map_congr_left fun field hfield => ?_)
      exact congrArg (Prod.mk field.1) (ih field hfield)

theorem display_widened (value : Value) : value.widened.display = value.display := by
  induction value using byMembers with
  | hleaf value h =>
      cases value with
      | int32 n =>
          rw [widened, display, display, Int32.toInt_toInt64]
      | array | document => exact h.elim
      | _ => rfl
  | harray items ih =>
      have htexts : displayItems (widenedItems items) = displayItems items := by
        rw [widenedItems_eq_map, displayItems_eq_map, displayItems_eq_map, List.map_map]
        exact List.map_congr_left ih
      rw [widened, display, display, htexts]
  | hdocument fields ih =>
      have htexts : displayFields (widenedFields fields) = displayFields fields := by
        rw [widenedFields_eq_map, displayFields_eq_map, displayFields_eq_map, List.map_map]
        exact List.map_congr_left fun field hfield =>
          congrArg (quoted field.1 ++ ": " ++ ·) (ih field hfield)
      cases fields with
      | nil => rfl
      | cons field fields =>
          rw [widenedFields] at htexts
          rw [widened, widenedFields, display, display, htexts]

theorem isNull_widened (value : Value) : value.widened.isNull = value.isNull := by
  cases value <;> rfl

theorem members_widened (value : Value) : value.widened.members = value.members.map widened := by
  cases value with
  | array items => exact widenedItems_eq_map items
  | _ => rfl

theorem testedValues_widened (value : Value) : value.widened.testedValues = value.testedValues := by
  cases value with
  | array items =>
      have hitems : (widenedItems items).map comparand = items.map comparand := by
        rw [widenedItems_eq_map, List.map_map]
        exact List.map_congr_left fun item _ => comparand_widened item
      exact congrArg₂ List.cons (comparand_widened (.array items)) hitems
  | int32 n => exact congrArg List.singleton (comparand_widened (.int32 n))
  | document fields => exact congrArg List.singleton (comparand_widened (.document fields))
  | _ => rfl

end Value

namespace Document

def widened (fields : Document) : Document := Value.widenedFields fields

theorem get?_widened (key : String) (fields : Document) :
    Fields.get? key fields.widened = (Fields.get? key fields).map Value.widened := by
  rw [widened, Value.widenedFields_eq_map, Fields.get?_map]

theorem contains_widened (key : String) (fields : Document) :
    Fields.contains key fields.widened = Fields.contains key fields := by
  rw [widened, Value.widenedFields_eq_map, Fields.contains_map]

theorem valueAt?_widened (path : Path) (fields : Document) :
    valueAt? path fields.widened = (valueAt? path fields).map Value.widened := by
  induction path generalizing fields with
  | nil => rfl
  | cons key path ih =>
      cases path with
      | nil => exact get?_widened key fields
      | cons next path =>
          rw [valueAt?, valueAt?, get?_widened]
          · cases Fields.get? key fields with
            | none => rfl
            | some value =>
                cases value with
                | document nested => exact ih nested
                | _ => rfl
          · exact List.cons_ne_nil next path
          · exact List.cons_ne_nil next path

theorem valueOf?_widened (field : String) (fields : Document) :
    fields.widened.valueOf? field = (fields.valueOf? field).map Value.widened :=
  valueAt?_widened (Path.ofText field) fields

end Document

end DocumentStore
