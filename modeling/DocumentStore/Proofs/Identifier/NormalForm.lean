import DocumentStore.Identifier
import DocumentStore.Proofs.Document.Paths
import DocumentStore.Proofs.Text.Hex

/-!
# Identifiers in stored form

What a store keys a record by is left as it is when it is read as an identifier again, so
the identifier of a record in stored form addresses that record.
-/

namespace DocumentStore

theorem ObjectId.ofHex?_hexDigits (id : ObjectId) : ObjectId.ofHex? id.hexDigits = some id := by
  have hbound : id.value.toNat < 16 ^ 24 := id.value.isLt
  have hdecode : Text.Hex.decode? id.hexDigits = some id.value.toNat :=
    Text.Hex.decode?_encode hbound
  have hlength : id.hexDigits.length = 24 := Text.Hex.length_encode 24 _
  rw [ofHex?, if_pos hlength, hdecode, Option.map_some, ofNat,
    BitVec.ofNat_toNat, BitVec.setWidth_eq]

theorem ObjectId.ofHex?_of_blank {text : List Char} (h : text.all Text.isBlank = true) :
    ObjectId.ofHex? text = none := by
  cases text with
  | nil => rfl
  | cons c text =>
      have hblank : Text.isBlank c = true := List.all_eq_true.1 h c List.mem_cons_self
      have hdecode : Text.Hex.decode? (c :: text) = none := by
        rw [Text.Hex.decode?, List.foldlM_cons, Text.Hex.digit?_of_isBlank hblank]
        rfl
      rw [ObjectId.ofHex?, hdecode]
      split <;> rfl

namespace Identifier

theorem ofText_eq_native {typed : Bool} {text : List Char} {id : ObjectId}
    (h : ObjectId.ofHex? text = some id) : ofText typed text = .native id := by
  rw [ofText, h]

theorem ofText_untyped {text : List Char} (h : ObjectId.ofHex? text = none) :
    ofText false text = .external (.string (String.ofList text)) := by
  rw [ofText, h]
  rfl

theorem ofValue_of_ofHex? {s : String} (h : ObjectId.ofHex? s.toList = none) :
    ofValue false (.string s) = .external (.string s) := by
  change ofText false s.toList = _
  rw [ofText_untyped h, String.ofList_toList]

theorem ofValue_stored (value : Value) :
    ofValue false (ofValue false value).stored = ofValue false value := by
  cases value with
  | string s =>
      cases hs : ObjectId.ofHex? s.toList with
      | some id =>
          change ofValue false (ofText false s.toList).stored = ofText false s.toList
          rw [ofText_eq_native hs]
          rfl
      | none =>
          rw [ofValue_of_ofHex? hs]
          exact ofValue_of_ofHex? hs
  | _ => rfl

theorem ofValue_shown_native (id : ObjectId) : ofValue false (native id).shown = native id := by
  change ofText false (String.ofList id.hexDigits).toList = native id
  rw [String.toList_ofList, ofText_eq_native id.ofHex?_hexDigits]

theorem ofValue_shown (value : Value) :
    ofValue false (ofValue false value).shown = ofValue false value := by
  cases value with
  | objectId id => exact ofValue_shown_native id
  | string s =>
      cases hs : ObjectId.ofHex? s.toList with
      | some id =>
          change ofValue false (ofText false s.toList).shown = ofText false s.toList
          rw [ofText_eq_native hs]
          exact ofValue_shown_native id
      | none =>
          rw [ofValue_of_ofHex? hs]
          exact ofValue_of_ofHex? hs
  | _ => rfl

theorem shownValue_stored (value : Value) :
    shownValue (ofValue false value).stored = (ofValue false value).shown := by
  cases value with
  | string s =>
      change shownValue (ofText false s.toList).stored = (ofText false s.toList).shown
      cases hs : ObjectId.ofHex? s.toList with
      | some id => rw [ofText_eq_native hs]; rfl
      | none => rw [ofText_untyped hs]; rfl
  | _ => rfl

/-! ## Records in stored form -/

variable {idField : String} {record : Document}

theorem get?_storedRecord {value : Value}
    (h : (Fields.get? idField record).or (Fields.get? aliasField record) = some value) :
    Fields.get? idField (storedRecord idField record) = some (ofValue false value).stored := by
  cases hfield : Fields.get? idField record with
  | some found =>
      rw [hfield, Option.some_or, Option.some_inj] at h
      simp only [storedRecord, hfield, Fields.get?_insert_self, h]
  | none =>
      rw [hfield, Option.none_or] at h
      simp only [storedRecord, hfield, h, Fields.get?_insert_self]

theorem storedRecord_of_none
    (h : (Fields.get? idField record).or (Fields.get? aliasField record) = none) :
    storedRecord idField record = record := by
  obtain ⟨hfield, halias⟩ := Option.or_eq_none_iff.1 h
  simp only [storedRecord, hfield, halias]

theorem ofRecord?_storedRecord {value : Value}
    (h : (Fields.get? idField record).or (Fields.get? aliasField record) = some value) :
    ofRecord? idField (storedRecord idField record) = some (ofValue false value) := by
  rw [ofRecord?, get?_storedRecord h, Option.some_or, Option.map_some, ofValue_stored]

theorem get?_storedRecord_of_ofRecord? {id : Identifier}
    (h : ofRecord? idField (storedRecord idField record) = some id) :
    Fields.get? idField (storedRecord idField record) = some id.stored := by
  cases hvalue : (Fields.get? idField record).or (Fields.get? aliasField record) with
  | some value =>
      rw [ofRecord?_storedRecord hvalue, Option.some_inj] at h
      rw [get?_storedRecord hvalue, h]
  | none =>
      rw [storedRecord_of_none hvalue, ofRecord?, hvalue] at h
      cases h

theorem storedRecord_singleton {key : String} (hkey : key = idField ∨ key = aliasField)
    (value : Value) :
    storedRecord idField [(key, value)] = [(idField, (ofValue false value).stored)] := by
  by_cases hfield : key = idField
  · simp [storedRecord, hfield, Fields.get?_cons, Fields.insert]
  · have halias : key = aliasField := hkey.resolve_left hfield
    rw [halias] at hfield ⊢
    simp [storedRecord, hfield, Fields.get?_cons, Fields.erase, Fields.insert]

theorem mem_of_mem_storedRecord {entry : String × Value}
    (h : entry ∈ storedRecord idField record) (hne : entry.1 ≠ idField) : entry ∈ record := by
  unfold storedRecord at h
  split at h
  · exact Fields.mem_of_mem_insert h hne
  · split at h
    · exact Fields.mem_of_mem_erase (Fields.mem_of_mem_insert h hne)
    · exact h

end Identifier

end DocumentStore
