import DocumentStore.Batch
import DocumentStore.Proofs.Json.Extended
import DocumentStore.Proofs.Json.Values
import DocumentStore.Proofs.Value.Widths

/-!
# Records read back from JSON

A record that is written as extended JSON and sent as a payload is the same record with wide
integers.  A document of a reserved form is read as the value that it stands for, and decimals come
back as documents.
-/

namespace DocumentStore

namespace Value

/-- The values that a payload keeps, up to the width of integers. -/
inductive IsKept : Value → Prop
  | scalar {value : Value} (h : value.IsKeptScalar) : IsKept value
  | array {items : List Value} (hitems : ∀ item ∈ items, IsKept item) : IsKept (.array items)
  | document {fields : Document} (hform : Extended.ofForm? (widenedFields fields) = none)
    (hvalues : ∀ field ∈ fields, IsKept field.2) : IsKept (.document fields)
  | scopedJavaScript (code : String) {scope : Document}
    (hform : Extended.ofForm? (widenedFields scope) = none)
    (hvalues : ∀ field ∈ scope, IsKept field.2) : IsKept (.scopedJavaScript code scope)

theorem toValues_toJsonItems {items : List Value}
    (h : ∀ item ∈ items, item.toJson.toValue = .ok item.widened) :
    Json.toValues (toJsonItems items) = .ok (widenedItems items) := by
  induction items with
  | nil => rfl
  | cons item items ih =>
      obtain ⟨hitem, hitems⟩ := List.forall_mem_cons.1 h
      rw [toJsonItems, Json.toValues, hitem, ih hitems]
      rfl

theorem toFields_toJsonFields {fields : Document}
    (h : ∀ field ∈ fields, field.2.toJson.toValue = .ok field.2.widened) :
    Json.toFields (toJsonFields fields) = .ok (widenedFields fields) := by
  induction fields with
  | nil => rfl
  | cons field fields ih =>
      obtain ⟨hfield, hfields⟩ := List.forall_mem_cons.1 h
      rw [toJsonFields, Json.toFields, hfield, ih hfields]
      rfl

theorem toValue_int {n : Int} (h : n ≤ Int64.maxValue.toInt) :
    (Json.int n).toValue = .ok (.int64 (Int64.ofInt n)) := by
  rw [Json.toValue, if_pos h]

theorem toValue_object {fields : List (String × Json)} {values : Document}
    (h : Json.toFields fields = .ok values) :
    (Json.object fields).toValue = .ok (.ofDocument values) := by
  rw [Json.toValue, h]
  rfl

theorem toValue_toJsonFields {fields : Document}
    (hform : Extended.ofForm? (widenedFields fields) = none)
    (h : ∀ field ∈ fields, field.2.toJson.toValue = .ok field.2.widened) :
    (Json.object (toJsonFields fields)).toValue = .ok (.document (widenedFields fields)) := by
  rw [toValue_object (toFields_toJsonFields h), ofDocument, hform, Option.getD_none]

theorem toValue_reserved {key : String} {read : Value → Option Value} {json : Json}
    {content value : Value} (hkey : Fields.get? key Extended.forms = some read)
    (hcontent : json.toValue = .ok content) (hread : read content = some value) :
    (Json.object [(key, json)]).toValue = .ok value := by
  have hform : Extended.ofForm? [(key, content)] = some value := by
    rw [Extended.ofForm?, hkey, Option.bind_some, hread]
  have hfields : Json.toFields [(key, json)] = .ok [(key, content)] := by
    rw [Json.toFields, hcontent]
    rfl
  rw [toValue_object hfields, ofDocument, hform, Option.getD_some]

/-- A document of two fields without code is of no reserved form. -/
theorem toValue_pair {key other : String} {json otherJson : Json} {value otherValue : Value}
    (hkey : key ≠ "$code") (hother : other ≠ "$code") (hvalue : json.toValue = .ok value)
    (hotherValue : otherJson.toValue = .ok otherValue) :
    (Json.object [(key, json), (other, otherJson)]).toValue =
      .ok (.document [(key, value), (other, otherValue)]) := by
  have hform : Extended.ofForm? [(key, value), (other, otherValue)] = none := by
    rw [Extended.ofForm?, Fields.get?_cons, if_neg hkey, Fields.get?_cons, if_neg hother]
    rfl
  have hfields : Json.toFields [(key, json), (other, otherJson)] =
      .ok [(key, value), (other, otherValue)] := by
    rw [Json.toFields, hvalue, Json.toFields, hotherValue]
    rfl
  rw [toValue_object hfields, ofDocument, hform, Option.getD_none]

theorem toValue_objectId (id : ObjectId) :
    (Json.object [("$oid", .string id.toHex)]).toValue = .ok (.objectId id) := by
  have hkey : Fields.get? "$oid" Extended.forms = some (Extended.ofText Extended.objectId?) := rfl
  have hcontent : (Json.string id.toHex).toValue = .ok (.string id.toHex) := by rw [Json.toValue]
  have hread : Extended.ofText Extended.objectId? (.string id.toHex) = some (.objectId id) := by
    rw [Extended.ofText, Extended.objectId?_toHex]
  exact toValue_reserved hkey hcontent hread

theorem toValue_dateTime (milliseconds : Int64) :
    (Value.dateTime milliseconds).toJson.toValue = .ok (.dateTime milliseconds) :=
  toValue_reserved rfl (toValue_reserved rfl rfl (Extended.int64?_ofInt milliseconds)) rfl

theorem toValue_word (n : UInt32) :
    (Json.int n.toNat).toValue = .ok (.int64 (Int64.ofInt n.toNat)) ∧
      (Int64.ofInt n.toNat).toInt = n.toNat := by
  have hbound := n.toNat_lt
  have hmax : Int64.maxValue.toInt = 9223372036854775807 := rfl
  have hmin : Int64.minValue.toInt = -9223372036854775808 := rfl
  exact ⟨toValue_int (by omega), Int64.toInt_ofInt_of_le (by omega) (by omega)⟩

theorem toValue_timestamp (time increment : UInt32) :
    (Value.timestamp time increment).toJson.toValue = .ok (.timestamp time increment) := by
  obtain ⟨htime, htimeInt⟩ := toValue_word time
  obtain ⟨hincrement, hincrementInt⟩ := toValue_word increment
  have hread : Extended.timestamp? (.document
      [("t", .int64 (Int64.ofInt time.toNat)), ("i", .int64 (Int64.ofInt increment.toNat))]) =
      some (.timestamp time increment) := by
    have htimeBound : (time.toNat : Int) < UInt32.size := Int.ofNat_lt.2 time.toNat_lt
    have hincrementBound : (increment.toNat : Int) < UInt32.size :=
      Int.ofNat_lt.2 increment.toNat_lt
    have hfits : 0 ≤ (Int64.ofInt time.toNat).toInt ∧
        (Int64.ofInt time.toNat).toInt < UInt32.size ∧
        0 ≤ (Int64.ofInt increment.toNat).toInt ∧
        (Int64.ofInt increment.toNat).toInt < UInt32.size := by
      omega
    refine (if_pos hfits).trans ?_
    rw [htimeInt, hincrementInt, Int.toNat_natCast, Int.toNat_natCast, UInt32.ofNat_toNat,
      UInt32.ofNat_toNat]
  exact toValue_reserved rfl (toValue_pair (by decide) (by decide) htime hincrement) hread

theorem toValue_binary {subtype : UInt8} (hsubtype : subtype ≠ 0) (bytes : List UInt8) :
    (Value.binary subtype bytes).toJson.toValue = .ok (.binary subtype bytes) := by
  rw [toJson, if_neg hsubtype]
  have hread : Extended.binary? (.document
      [("base64", .string (String.ofList (Text.Base64.encode bytes))),
        ("subType", .string (String.ofList (Text.Hex.encodeBytes [subtype])))]) =
      some (.binary subtype bytes) := by
    simp [Extended.binary?, Fields.get?_cons, Text.Base64.decode?_encode,
      Text.Hex.decodeBytes?_encodeBytes]
  exact toValue_reserved rfl (toValue_pair (by decide) (by decide) rfl rfl) hread

theorem toValue_scalar {value : Value} (h : value.IsKeptScalar) :
    value.toJson.toValue = .ok value.widened := by
  cases h with
  | null => rfl
  | bool b => rfl
  | int32 n =>
      have hwide : Int64.ofInt n.toInt = n.toInt64 := by
        rw [← Int32.toInt_toInt64, Int64.ofInt_toInt]
      have hfits : n.toInt ≤ Int64.maxValue.toInt := by
        rw [← Int32.toInt_toInt64]
        exact n.toInt64.toInt_le
      rw [toJson, toValue_int hfits, hwide, widened]
  | int64 n =>
      rw [toJson, toValue_int n.toInt_le, Int64.ofInt_toInt]
      rfl
  | double hnumber hfinite => 
      rw [toJson, hnumber, hfinite]
      rfl
  | string s => rfl
  | objectId id => exact toValue_objectId id
  | dateTime milliseconds => exact toValue_dateTime milliseconds
  | timestamp time increment => exact toValue_timestamp time increment
  | binary hsubtype bytes => exact toValue_binary hsubtype bytes
  | symbol name => exact toValue_reserved rfl rfl rfl
  | javaScript code => exact toValue_reserved rfl rfl rfl
  | regularExpression hpattern hoptions hordered =>
      exact toValue_reserved rfl (toValue_pair (by decide) (by decide) rfl rfl)
        (Extended.regularExpression?_ordered hpattern hoptions hordered)
  | pointer collection id =>
      exact toValue_reserved rfl
        (toValue_pair (by decide) (by decide) rfl (toValue_objectId id)) rfl
  | undefined => exact toValue_reserved rfl rfl rfl
  | minKey => exact toValue_reserved rfl rfl rfl
  | maxKey => exact toValue_reserved rfl rfl rfl

theorem toValue_toJson {value : Value} (h : value.IsKept) :
    value.toJson.toValue = .ok value.widened := by
  induction h with
  | scalar h => exact toValue_scalar h
  | array hitems ih =>
      rw [toJson, Json.toValue, toValues_toJsonItems ih, widened]
      rfl
  | document hform hvalues ih =>
      rw [toJson, toValue_toJsonFields hform ih, widened]
  | @scopedJavaScript code scope hform hvalues ih =>
      have hscope := toValue_toJsonFields hform ih
      have hfields : Json.toFields
          [("$code", .string code), ("$scope", .object (toJsonFields scope))] =
          .ok [("$code", .string code), ("$scope", .document (widenedFields scope))] := by
        rw [Json.toFields, Json.toFields, hscope]
        rfl
      rw [toJson, toValue_object hfields]
      rfl

end Value

/-! ## Payloads -/

namespace Batch

variable {records : List Document}

theorem documentsFrom_documents (index : Nat) (records : List Document) :
    documentsFrom index (records.map .document) = .ok records := by
  induction records generalizing index with
  | nil => rfl
  | cons record records ih =>
      rw [List.map_cons, documentsFrom, ih]
      rfl

theorem ofJson_toJson (h : ∀ record ∈ records, (Value.document record).IsKept) :
    ofJson (Value.array (records.map .document)).toJson = .ok ⟨records.map Document.widened⟩ := by
  have hitems : ∀ item ∈ records.map Value.document, item.IsKept := by
    intro item hitem
    obtain ⟨record, hrecord, rfl⟩ := List.mem_map.1 hitem
    exact h record hrecord
  have hwidened : (Value.array (records.map .document)).widened =
      .array ((records.map Document.widened).map .document) := by
    rw [Value.widened, Value.widenedItems_eq_map, List.map_map, List.map_map]
    exact congrArg Value.array (List.map_congr_left fun record _ => by
      rw [Function.comp_apply, Value.widened, Function.comp_apply, Document.widened])
  rw [ofJson, Value.toValue_toJson (.array hitems), hwidened]
  change (documentsFrom 0 ((records.map Document.widened).map .document)).map Batch.mk = _
  rw [documentsFrom_documents]
  rfl

/-- Records that are written as text and sent as a payload are those that were written, with wide
integers. -/
theorem ofJson_read?_text (h : ∀ record ∈ records, (Value.document record).IsKept)
    (hexact : (Value.array (records.map .document)).toJson.IsExact) :
    (Json.read? (Value.array (records.map .document)).toJson.text).map ofJson =
      some (.ok ⟨records.map Document.widened⟩) := by
  rw [Json.read?_text hexact, Option.map_some, ofJson_toJson h]

end Batch

end DocumentStore
