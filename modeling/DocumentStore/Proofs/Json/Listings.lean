import DocumentStore.Outcome
import DocumentStore.Proofs.Json.Extended
import DocumentStore.Proofs.Json.Settings
import DocumentStore.Proofs.Number.Decimals
import DocumentStore.Proofs.Results

/-!
# Lists of records read back

A list of records that is written as JSON is read as the same list, but for the width of its
integers.  Decimals come back from their bytes.  A record in it must not use a reserved key,
which would end its reading.
-/

namespace DocumentStore

namespace Value

/-! ## Widths -/

/-- A natural number is narrow where it fits, and a negative one never. -/
def settledInt (n : Int64) : Value := if n.toInt < 0 then .int64 n else .ofInt64 n

mutual

/-- The value with the widths that a stored list gives to its integers. -/
def settled : Value → Value
  | .int32 n => settledInt n.toInt64
  | .int64 n => settledInt n
  | .array items => .array (settledItems items)
  | .document fields => .document (settledFields fields)
  | .scopedJavaScript code scope => .scopedJavaScript code (settledFields scope)
  | value => value

def settledItems : List Value → List Value
  | [] => []
  | item :: items => item.settled :: settledItems items

def settledFields : List (String × Value) → List (String × Value)
  | [] => []
  | (key, value) :: fields => (key, value.settled) :: settledFields fields

end

/-- A key that neither ends an object nor starts code. -/
structure IsFreeKey (key : String) : Prop where
  unreserved : Fields.get? key Json.reserved = none
  code : key ≠ "$code"
  scope : key ≠ "$scope"

/-- The values that a stored list keeps, up to the width of integers. -/
inductive IsStorable : Value → Prop
  | scalar {value : Value} (h : value.IsKeptScalar) : IsStorable value
  | decimal (x : Decimal128) : IsStorable (.decimal x)
  | array {items : List Value} (hitems : ∀ item ∈ items, IsStorable item) :
    IsStorable (.array items)
  | document {fields : Document} (hkeys : ∀ field ∈ fields, IsFreeKey field.1)
    (hvalues : ∀ field ∈ fields, IsStorable field.2) : IsStorable (.document fields)
  | scopedJavaScript (code : String) {scope : Document}
    (hkeys : ∀ field ∈ scope, IsFreeKey field.1)
    (hvalues : ∀ field ∈ scope, IsStorable field.2) : IsStorable (.scopedJavaScript code scope)

/-! ## Contents of reserved keys -/

theorem toStored_reserved {key : String} {read : Json → Except Json.ReadError Value} {json : Json}
    {value : Value} (hkey : Fields.get? key Json.reserved = some read)
    (hread : read json = .ok value) : (Json.object [(key, json)]).toStored = .ok value := by
  have hcode : key ≠ "$code" := by
    rintro rfl
    cases hkey
  have hscope : key ≠ "$scope" := by
    rintro rfl
    cases hkey
  rw [Json.toStored, Json.toStoredObject.eq_4 _ _ _ _ _ hcode hscope, hkey]
  simp only [hread]
  rfl

theorem readObjectId_toHex (id : ObjectId) :
    Json.readObjectId (.string id.toHex) = .ok (.objectId id) := by
  rw [Json.readObjectId, Json.valueOf, Extended.objectId?_toHex]

theorem readDate_ofInt (milliseconds : Int64) :
    Json.readDate (.object
      [("$numberLong", .string (String.ofList (Decimal.ofInt milliseconds.toInt)))]) =
      .ok (.dateTime milliseconds) := by
  rw [Json.readDate, Json.readDate.ofDigits, Extended.int64?_ofInt]

theorem readTimestamp_words (time increment : UInt32) :
    Json.readTimestamp (.object [("t", .int time.toNat), ("i", .int increment.toNat)]) =
      .ok (.timestamp time increment) := by
  have hfields : Json.timestampShape.readFields [] (0, 0)
      [("t", .int time.toNat), ("i", .int increment.toNat)] =
      .ok (["i", "t"], time.toNat, increment.toNat) := by
    have htime := Json.readBelow_ofNat time.toNat_lt "u32"
    have hincrement := Json.readBelow_ofNat increment.toNat_lt "u32"
    refine (Json.Shape.readFields_cons rfl rfl
      (by exact Json.Shape.store_of_read htime _) _).trans ?_
    refine (Json.Shape.readFields_cons rfl rfl
      (by exact Json.Shape.store_of_read hincrement _) _).trans ?_
    rfl
  rw [Json.readTimestamp, Json.Shape.read_object hfields rfl]
  exact congrArg Except.ok (congrArg₂ Value.timestamp time.ofNat_toNat increment.ofNat_toNat)

theorem readBinary_encode (subtype : UInt8) (bytes : List UInt8) :
    Json.readBinary (.object [("base64", .string (String.ofList (Text.Base64.encode bytes))),
      ("subType", .string (String.ofList (Text.Hex.encodeBytes [subtype])))]) =
      .ok (.binary subtype bytes) := by
  have hbody (letters digits : String) : Json.binaryShape.read ("", "")
      (.object [("base64", .string letters), ("subType", .string digits)]) =
      .ok (letters, digits) := rfl
  rw [Json.readBinary, hbody]
  simp only [bind, Except.bind, String.toList_ofList, Text.Base64.decode?_encode,
    Text.Hex.decodeBytes?_encodeBytes]
  rfl

theorem readExpression_ordered {pattern options : String} (hpattern : '\x00' ∉ pattern.toList)
    (hoptions : '\x00' ∉ options.toList)
    (hordered : options.toList.Pairwise fun a b => a.toNat ≤ b.toNat) :
    Json.readExpression (.object [("pattern", .string pattern), ("options", .string options)]) =
      .ok (.regularExpression pattern options) := by
  have hbody : Json.expressionShape.read ("", "")
      (.object [("pattern", .string pattern), ("options", .string options)]) =
      .ok (pattern, options) := rfl
  rw [Json.readExpression, hbody]
  simp only [bind, Except.bind, Extended.regularExpression?_ordered hpattern hoptions hordered]
  rfl

theorem readPointer_toHex (collection : String) (id : ObjectId) :
    Json.readPointer (.object
      [("$ref", .string collection), ("$id", .object [("$oid", .string id.toHex)])]) =
      .ok (.pointer collection id) := by
  have hbody (digits : String) : Json.pointerShape.read ("", "") (.object
      [("$ref", .string collection), ("$id", .object [("$oid", .string digits)])]) =
      .ok (collection, digits) := rfl
  rw [Json.readPointer, hbody]
  simp only [bind, Except.bind, ObjectId.toHex, String.toList_ofList, ObjectId.ofHex?_hexDigits]
  rfl

theorem readBytes_ofBytes (bytes : List UInt8) :
    Json.readBytes (toJson.ofBytes bytes) = .ok bytes := by
  rw [toJson.ofBytes, Json.readBytes, mapM_eq_ok_iff, List.forall₂_map_left_iff, List.forall₂_same]
  intro byte _
  rw [Json.readBelow_ofNat byte.toNat_lt "u8"]
  exact congrArg Except.ok byte.ofNat_toNat

theorem readDecimalBytes_bytes (x : Decimal128) :
    Json.readDecimalBytes (toJson.ofBytes x.bytes) = .ok (.decimal x) := by
  simp only [Json.readDecimalBytes, readBytes_ofBytes, bind, Except.bind, Decimal128.ofBytes?_bytes]
  rfl

/-! ## Values -/

theorem toStored_int (n : Int64) : (Json.int n.toInt).toStored = .ok (settledInt n) := by
  rw [Json.toStored, settledInt, Int64.ofInt_toInt]
  split
  · rfl
  · rw [if_pos n.toInt_le]

theorem toStored_scalar {value : Value} (h : value.IsKeptScalar) :
    value.toJson.toStored = .ok value.settled := by
  cases h with
  | null => rfl
  | bool b => rfl
  | int32 n =>
      rw [toJson, ← Int32.toInt_toInt64, toStored_int, settled]
  | int64 n => exact toStored_int n
  | double hnumber hfinite =>
      rw [toJson, hnumber, hfinite]
      rfl
  | string s => rfl
  | objectId id => exact toStored_reserved rfl (readObjectId_toHex id)
  | dateTime milliseconds => exact toStored_reserved rfl (readDate_ofInt milliseconds)
  | timestamp time increment => exact toStored_reserved rfl (readTimestamp_words time increment)
  | @binary subtype hsubtype bytes =>
      rw [toJson, if_neg hsubtype]
      exact toStored_reserved rfl (readBinary_encode subtype bytes)
  | symbol name => rfl
  | javaScript code => rfl
  | regularExpression hpattern hoptions hordered =>
      exact toStored_reserved rfl (readExpression_ordered hpattern hoptions hordered)
  | pointer collection id => exact toStored_reserved rfl (readPointer_toHex collection id)
  | undefined => rfl
  | minKey => rfl
  | maxKey => rfl

theorem toStoredItems_toJsonItems {items : List Value}
    (h : ∀ item ∈ items, item.toJson.toStored = .ok item.settled) :
    Json.toStoredItems (toJsonItems items) = .ok (settledItems items) := by
  induction items with
  | nil => rfl
  | cons item items ih =>
      obtain ⟨hitem, hitems⟩ := List.forall_mem_cons.1 h
      rw [toJsonItems, Json.toStoredItems, hitem, ih hitems]
      rfl

/-- Fields of free keys join those that were read before. -/
theorem toStoredObject_toJsonFields {fields : Document}
    (hkeys : ∀ field ∈ fields, IsFreeKey field.1)
    (h : ∀ field ∈ fields, field.2.toJson.toStored = .ok field.2.settled) (size : Nat)
    (before : Document) :
    Json.toStoredObject size before (toJsonFields fields) =
      .ok (.document (before ++ settledFields fields)) := by
  induction fields generalizing before with
  | nil =>
      rw [toJsonFields, Json.toStoredObject, settledFields, List.append_nil]
  | cons field fields ih =>
      obtain ⟨key, value⟩ := field
      obtain ⟨hkey, hkeys⟩ := List.forall_mem_cons.1 hkeys
      obtain ⟨hvalue, hvalues⟩ := List.forall_mem_cons.1 h
      rw [toJsonFields, Json.toStoredObject.eq_4 _ _ _ _ _ hkey.code hkey.scope, hkey.unreserved]
      simp only [hvalue]
      change Json.toStoredObject size (before ++ [(key, value.settled)]) (toJsonFields fields) = _
      rw [ih hkeys hvalues, List.append_assoc, List.singleton_append, settledFields]

theorem toStoredDocument_toJsonFields {fields : Document}
    (hkeys : ∀ field ∈ fields, IsFreeKey field.1)
    (h : ∀ field ∈ fields, field.2.toJson.toStored = .ok field.2.settled) :
    (Json.object (toJsonFields fields)).toStoredDocument = .ok (settledFields fields) := by
  rw [Json.toStoredDocument, toStoredObject_toJsonFields hkeys h]
  rfl

theorem toStored_toJson {value : Value} (h : value.IsStorable) :
    value.toJson.toStored = .ok value.settled := by
  induction h with
  | scalar h => exact toStored_scalar h
  | decimal x => exact toStored_reserved rfl (readDecimalBytes_bytes x)
  | array _ ih =>
      rw [toJson, Json.toStored, toStoredItems_toJsonItems ih, settled]
      rfl
  | document hkeys _ ih =>
      rw [toJson, Json.toStored, toStoredObject_toJsonFields hkeys ih, settled, List.nil_append]
  | scopedJavaScript code hkeys _ ih =>
      rw [toJson, Json.toStored, Json.toStoredObject.eq_2]
      change ((Json.object (toJsonFields _)).toStoredDocument >>= fun scope =>
        Json.endObject 2 [] (.scopedJavaScript code scope)) = _
      rw [toStoredDocument_toJsonFields hkeys ih]
      rfl

end Value

/-! ## Lists -/

def Document.settled (fields : Document) : Document := Value.settledFields fields

theorem Listing.read_count {count : Nat} (h : count < UInt64.size) :
    Json.readOptional (countShape.read 0) (.object [("count", .int count)]) = .ok (some count) := by
  have hcount : Json.readCount (.int count) = .ok count := Json.readBelow_ofNat h "u64"
  have hfields : countShape.readFields [] 0 [("count", .int count)] = .ok (["count"], count) := by
    have hstore (json : Json) : (countShape.find? "count").map (fun setting =>
        setting.store json 0) = some (Json.readCount json) := rfl
    refine (Json.Shape.readFields_cons rfl rfl ((hstore _).trans (congrArg some hcount)) _).trans ?_
    rfl
  change (countShape.read 0 (.object [("count", .int count)])).map some = _
  rw [Json.Shape.read_object hfields rfl]
  rfl

theorem Document.toStoredDocument_toJson {record : Document}
    (h : (Value.document record).IsStorable) :
    (Value.document record).toJson.toStoredDocument = .ok record.settled := by
  rw [Value.toJson]
  cases h with
  | scalar h => cases h
  | document hkeys hvalues =>
      exact Value.toStoredDocument_toJsonFields hkeys fun field hfield =>
        Value.toStored_toJson (hvalues field hfield)

/-- A list that is written as JSON is read as the list that was written, but for the width of its
integers. -/
theorem Listing.ofJson_toJson {list : Listing}
    (hrecords : ∀ record ∈ list.records, (Value.document record).IsStorable)
    (hcount : ∀ count ∈ list.count, count < UInt64.size) :
    ofJson list.toJson = .ok ⟨list.records.map Document.settled, list.count⟩ := by
  obtain ⟨records, count⟩ := list
  have hread : Json.readList Json.toStoredDocument
      (.array (records.map fun record => (Value.document record).toJson)) =
      .ok (records.map Document.settled) := by
    rw [Json.readList, mapM_eq_ok_iff, List.forall₂_map_left_iff, List.forall₂_map_right_iff,
      List.forall₂_same]
    exact fun record hrecord => Document.toStoredDocument_toJson (hrecords record hrecord)
  have hfields : shape.readFields [] { records := [] }
      [("record", .array (records.map fun record => (Value.document record).toJson))] =
      .ok (["record"], { records := records.map Document.settled }) := by
    refine (Json.Shape.readFields_cons rfl rfl
      (by exact Json.Shape.store_of_read hread _) _).trans ?_
    rfl
  cases count with
  | none => exact congrArg (Except.mapError _) (Json.Shape.read_object hfields rfl)
  | some count =>
      have hmeta : shape.readFields [] { records := [] }
          [("record", .array (records.map fun record => (Value.document record).toJson)),
            ("meta", .object [("count", .int count)])] =
          .ok (["meta", "record"], ⟨records.map Document.settled, some count⟩) := by
        have hnumber := Listing.read_count (hcount count rfl)
        refine (Json.Shape.readFields_cons rfl rfl
          (by exact Json.Shape.store_of_read hread _) _).trans ?_
        refine (Json.Shape.readFields_cons rfl rfl
          (by exact Json.Shape.store_of_read hnumber _) _).trans ?_
        rfl
      exact congrArg (Except.mapError _) (Json.Shape.read_object hmeta rfl)

end DocumentStore
