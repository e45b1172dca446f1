import DocumentStore.Proofs.Document.Splitting
import DocumentStore.Proofs.Identifier.NormalForm
import DocumentStore.Proofs.Literal

/-!
# Canonical forms

A record in stored form stays as it is when it is put into stored form again or shown and read
back.  An identifier does so too, and some record carries it, unless it was read from quotes around
24 hexadecimal digits: then it is a text that every record has as a native identifier.
-/

namespace DocumentStore

namespace Identifier

/-! ## Identifiers that are read again -/

/-- The stored form of the identifier stands for it. -/
def IsSettled (id : Identifier) : Prop := ofValue false id.stored = id

/-- The text that stands in quotes is that of a native identifier. -/
def quotesDigits (text : List Char) : Bool :=
  (Literal.quotedText? text).any fun inner => (ObjectId.ofHex? inner).isSome

theorem isSettled_text_iff (s : String) :
    (external (.string s)).IsSettled ↔ ObjectId.ofHex? s.toList = none := by
  change ofText false s.toList = _ ↔ _
  cases hs : ObjectId.ofHex? s.toList with
  | some id => simp [ofText_eq_native hs]
  | none => simp [ofText_untyped hs]

theorem isSettled_literal_iff (literal : Literal) : (external literal.value).IsSettled ↔
    ∀ s, literal = .string s → ObjectId.ofHex? s.toList = none := by
  cases literal with
  | string s => simpa [Literal.value] using isSettled_text_iff s
  | int n =>
      have hinteger : (external (Value.ofInt64 n)).IsSettled := by
        rw [Value.ofInt64]
        split <;> rfl
      simpa [Literal.value] using hinteger
  | float x | bool b => simp [Literal.value, IsSettled, stored, ofValue]

theorem quotesDigits_of_ofHex? {text : List Char} {id : ObjectId}
    (h : ObjectId.ofHex? text = some id) : quotesDigits text = false := by
  cases hquoted : Literal.quotedText? text with
  | none => simp [quotesDigits, hquoted]
  | some inner =>
      -- The quotes take two of the 24 characters.
      have htext : text.length = 24 := by
        by_contra hlength
        rw [ObjectId.ofHex?, if_neg hlength] at h
        cases h
      obtain ⟨quote, -, hshape⟩ := Literal.exists_of_quotedText? hquoted
      have hinner : inner.length ≠ 24 := by
        have hlength := congrArg List.length hshape
        simp at hlength
        omega
      simp [quotesDigits, hquoted, ObjectId.ofHex?, hinner]

theorem isSettled_ofText_iff (typed : Bool) (text : List Char) :
    (ofText typed text).IsSettled ↔ ¬ (typed = true ∧ quotesDigits text = true) := by
  cases htext : ObjectId.ofHex? text with
  | some id =>
      rw [ofText_eq_native htext, quotesDigits_of_ofHex? htext]
      simp [IsSettled, stored, ofValue]
  | none =>
      cases typed with
      | false =>
          rw [ofText_untyped htext, isSettled_text_iff, String.toList_ofList]
          simpa using htext
      | true =>
          rw [ofText, htext]
          dsimp only
          rw [if_pos rfl, isSettled_literal_iff]
          cases hquoted : Literal.quotedText? text with
          | none =>
              have hplain : quotesDigits text = false := by simp [quotesDigits, hquoted]
              simp only [hplain]
              simp
              intro s hs
              rw [Literal.eq_of_ofToken_eq_string hquoted hs, String.toList_ofList]
              exact htext
          | some inner =>
              have htoken : Literal.ofToken text = .string (String.ofList inner) := by
                rw [Literal.ofToken, hquoted]
              cases hinner : ObjectId.ofHex? inner <;> simp [htoken, quotesDigits, hquoted, hinner]

def quotesNative : Value → Bool
  | .string s => quotesDigits s.toList
  | _ => false

theorem isSettled_ofValue_iff (typed : Bool) (value : Value) :
    (ofValue typed value).IsSettled ↔ ¬ (typed = true ∧ quotesNative value = true) := by
  cases value with
  | string s => exact isSettled_ofText_iff typed s.toList
  | _ => simp [IsSettled, stored, ofValue, quotesNative]

/-! ## Identifiers that records carry -/

theorem ofText_ne_external_objectId (typed : Bool) (text : List Char) (id : ObjectId) :
    ofText typed text ≠ external (.objectId id) := by
  intro h
  rw [ofText] at h
  split at h
  · cases h
  · split at h
    · cases hliteral : Literal.ofToken text with
      | int n =>
          rw [hliteral, Literal.value, Value.ofInt64] at h
          split at h <;> cases h
      | _ =>
          rw [hliteral] at h
          cases h
    · cases h

theorem ofValue_ne_external_objectId (typed : Bool) (value : Value) (id : ObjectId) :
    ofValue typed value ≠ external (.objectId id) := by
  cases value with
  | string s => exact ofText_ne_external_objectId typed s.toList id
  | _ => nofun

theorem eq_of_stored {a b : Identifier} (ha : ∀ id, a ≠ external (.objectId id))
    (hb : ∀ id, b ≠ external (.objectId id)) (h : a.stored = b.stored) : a = b := by
  cases a with
  | native id =>
      cases b with
      | native other => exact congrArg native (Value.objectId.inj h)
      | external value => exact absurd (congrArg external h.symm) (hb id)
  | external value =>
      cases b with
      | native id => exact absurd (congrArg external h) (ha id)
      | external other => exact congrArg external h

variable {id : Identifier}

section

variable (hid : ∀ native, id ≠ external (.objectId native))

include hid

theorem not_isSettled_iff : ¬ id.IsSettled ↔
    ∃ s, id = external (.string s) ∧ (ObjectId.ofHex? s.toList).isSome = true := by
  cases id with
  | native id => simp [IsSettled, stored, ofValue]
  | external value =>
      cases value with
      | string s => simp [isSettled_text_iff, Option.isSome_iff_ne_none]
      | objectId id => exact absurd rfl (hid id)
      | _ => simp [IsSettled, stored, ofValue]

theorem exists_storedRecord_iff (idField : String) :
    (∃ record, Fields.get? idField (storedRecord idField record) = some id.stored) ↔
      id.IsSettled := by
  constructor
  · rintro ⟨record, h⟩
    cases hfound : (Fields.get? idField record).or (Fields.get? aliasField record) with
    | none =>
        rw [storedRecord_of_none hfound, (Option.or_eq_none_iff.1 hfound).1] at h
        cases h
    | some found =>
        rw [get?_storedRecord hfound, Option.some_inj] at h
        have hsame : ofValue false found = id :=
          eq_of_stored (ofValue_ne_external_objectId false found) hid h
        rw [IsSettled, ← hsame, ofValue_stored]
  · intro h
    refine ⟨[(idField, id.stored)], ?_⟩
    rw [storedRecord_singleton (.inl rfl), Fields.get?_cons, if_pos rfl]
    exact congrArg (some ∘ stored) h

end

/-- An identifier is read back from its stored form, is no text of 24 hexadecimal digits, and is
carried by some record in stored form, each of these unless it was read from quotes around such
digits.  So an element of a delimited list addresses a record that can be if it is not of this
form. -/
theorem readBack_iff_not_quotesNative (typed : Bool) (value : Value) (idField text : String) :
    (ofValue false (ofValue typed value).stored = ofValue typed value ↔
      ¬ (typed = true ∧ quotesNative value = true)) ∧
    ((∃ s, ofValue typed value = external (.string s) ∧
        (ObjectId.ofHex? s.toList).isSome = true) ↔
      typed = true ∧ quotesNative value = true) ∧
    ((∃ record, Fields.get? idField (storedRecord idField record) =
        some (ofValue typed value).stored) ↔
      ¬ (typed = true ∧ quotesNative value = true)) ∧
    ((∀ id ∈ (IdentifierList.delimited text).identifiers,
        ∃ record, Fields.get? idField (storedRecord idField record) = some id.stored) ↔
      ∀ element ∈ IdentifierList.elements text.toList, quotesDigits element = false) := by
  have hkind := ofValue_ne_external_objectId typed value
  have hsettled := isSettled_ofValue_iff typed value
  refine ⟨hsettled, ?_, ?_, ?_⟩
  · rw [← not_isSettled_iff hkind, hsettled, not_not]
  · rw [exists_storedRecord_iff hkind, hsettled]
  · have helement (element : List Char) : (∃ record,
        Fields.get? idField (storedRecord idField record) = some (ofText true element).stored) ↔
          quotesDigits element = false := by
      rw [exists_storedRecord_iff (ofText_ne_external_objectId true element),
        isSettled_ofText_iff]
      simp
    exact List.forall_mem_map.trans (forall₂_congr fun element _ => helement element)

/-- Quotes around the text of a native identifier make a text of it, which no record carries: as the
identifier of a record it is native. -/
theorem identifiers_of_quoted_digits :
    let quoted : Value := .string "'507f1f77bcf86cd799439011'"
    let digits : Value := .string "507f1f77bcf86cd799439011"
    (IdentifierList.delimited "'507f1f77bcf86cd799439011'").identifiers = [external digits] ∧
    ofValue true quoted = external digits ∧
    ofValue false (ofValue true quoted).stored = native (.ofNat 0x507f1f77bcf86cd799439011) ∧
    ofValue false (ofValue true quoted).stored ≠ ofValue true quoted ∧
    ¬ ∃ record,
      Fields.get? "_id" (storedRecord "_id" record) = some (ofValue true quoted).stored := by
  intro quoted digits
  have hread : ofValue true quoted = external digits := rfl
  have hnative : ofValue false digits = native (.ofNat 0x507f1f77bcf86cd799439011) := rfl
  have hunsettled : ¬ (external digits).IsSettled := by
    rw [isSettled_text_iff]
    decide
  refine ⟨rfl, hread, hnative, hunsettled, ?_⟩
  rw [exists_storedRecord_iff (ofValue_ne_external_objectId true quoted), hread]
  exact hunsettled

/-! ## Records in stored form -/

variable {idField : String} {record : Document}

theorem storedRecord_of_get? {value : Value} (h : Fields.get? idField record = some value) :
    storedRecord idField record = Fields.insert idField (ofValue false value).stored record := by
  simp only [storedRecord, h]

theorem storedRecord_of_alias {value : Value} (h : Fields.get? idField record = none)
    (halias : Fields.get? aliasField record = some value) :
    storedRecord idField record =
      Fields.insert idField (ofValue false value).stored (Fields.erase aliasField record) := by
  simp only [storedRecord, h, halias]

theorem storedRecord_insert (idField : String) (value : Value) (record : Document) :
    storedRecord idField (Fields.insert idField value record) =
      Fields.insert idField (ofValue false value).stored record := by
  rw [storedRecord_of_get? (Fields.get?_insert_self idField value record),
    Fields.insert_insert_self]

theorem get?_storedRecord_eq (idField : String) (record : Document) :
    Fields.get? idField (storedRecord idField record) =
      (ofRecord? idField record).map stored := by
  rw [ofRecord?]
  cases hfound : (Fields.get? idField record).or (Fields.get? aliasField record) with
  | some value => exact get?_storedRecord hfound
  | none =>
      rw [storedRecord_of_none hfound]
      exact (Option.or_eq_none_iff.1 hfound).1

theorem ofRecord?_storedRecord_eq (idField : String) (record : Document) :
    ofRecord? idField (storedRecord idField record) = ofRecord? idField record := by
  cases hfound : (Fields.get? idField record).or (Fields.get? aliasField record) with
  | some value => rw [ofRecord?_storedRecord hfound, ofRecord?, hfound, Option.map_some]
  | none => rw [storedRecord_of_none hfound]

theorem storedRecord_of_stored {value : Value} (h : Fields.get? idField record =
    some (ofValue false value).stored) : storedRecord idField record = record := by
  rw [storedRecord_of_get? h, ofValue_stored, Fields.insert_of_get? h]

theorem storedRecord_storedRecord (idField : String) (record : Document) :
    storedRecord idField (storedRecord idField record) = storedRecord idField record := by
  cases hfound : (Fields.get? idField record).or (Fields.get? aliasField record) with
  | some value => exact storedRecord_of_stored (get?_storedRecord hfound)
  | none => rw [storedRecord_of_none hfound, storedRecord_of_none hfound]

theorem erase_storedRecord (idField : String) (record : Document) :
    Fields.erase idField (Fields.erase aliasField (storedRecord idField record)) =
      Fields.erase idField (Fields.erase aliasField record) := by
  cases hfield : Fields.get? idField record with
  | some value =>
      rw [storedRecord_of_get? hfield, Fields.erase_comm, Fields.erase_insert_self,
        Fields.erase_comm]
  | none =>
      cases halias : Fields.get? aliasField record with
      | some value =>
          rw [storedRecord_of_alias hfield halias, Fields.erase_comm, Fields.erase_insert_self,
            Fields.erase_comm, Fields.erase_erase_self]
      | none => rw [storedRecord_of_none (by rw [hfield, halias]; rfl)]

/-- The alias is left only beside an identifier in the identifier field. -/
theorem get?_alias_storedRecord (hne : idField ≠ aliasField) (record : Document) :
    Fields.get? aliasField (storedRecord idField record) =
      if Fields.contains idField record then Fields.get? aliasField record else none := by
  rw [Fields.contains]
  cases hfield : Fields.get? idField record with
  | some value =>
      rw [storedRecord_of_get? hfield, Fields.get?_insert_of_ne hne.symm]
      rfl
  | none =>
      cases halias : Fields.get? aliasField record with
      | some value =>
          rw [storedRecord_of_alias hfield halias, Fields.get?_insert_of_ne hne.symm,
            Fields.get?_erase_self]
          rfl
      | none =>
          rw [storedRecord_of_none (by rw [hfield, halias]; rfl), halias]
          rfl

theorem stored_ofValue_shownValue (value : Value) :
    (ofValue false (shownValue (ofValue false value).stored)).stored =
      (ofValue false value).stored := by
  rw [shownValue_stored, ofValue_shown]

theorem storedRecord_shownRecord (idField : String) (record : Document) :
    storedRecord idField (shownRecord idField (storedRecord idField record)) =
      storedRecord idField record := by
  cases hfound : (Fields.get? idField record).or (Fields.get? aliasField record) with
  | some value =>
      have hfield := get?_storedRecord hfound
      have hshown : shownRecord idField (storedRecord idField record) = Fields.insert idField
          (shownValue (ofValue false value).stored) (storedRecord idField record) := by
        simp only [shownRecord, hfield]
      rw [hshown, storedRecord_insert, stored_ofValue_shownValue, Fields.insert_of_get? hfield]
  | none =>
      obtain ⟨hfield, halias⟩ := Option.or_eq_none_iff.1 hfound
      have hshown : shownRecord idField record = record := by
        simp only [shownRecord, hfield, halias]
      rw [storedRecord_of_none hfound, hshown, storedRecord_of_none hfound]

/-- A record in stored form has its identifier, in stored form, under the identifier field, and
keeps its other fields; the alias stays beside a given identifier only.  Stored again, or shown and
stored again, the record is the same. -/
theorem storedRecord_canonical (idField : String) (record : Document) :
    let after := storedRecord idField record
    storedRecord idField after = after ∧
    ofRecord? idField after = ofRecord? idField record ∧
    Fields.get? idField after = (ofRecord? idField after).map stored ∧
    Fields.erase idField (Fields.erase aliasField after) =
      Fields.erase idField (Fields.erase aliasField record) ∧
    (idField ≠ aliasField → ∀ value, Fields.get? aliasField after = some value ↔
      Fields.contains idField record = true ∧ Fields.get? aliasField record = some value) ∧
    storedRecord idField (shownRecord idField after) = after := by
  intro after
  have hid : ofRecord? idField after = ofRecord? idField record :=
    ofRecord?_storedRecord_eq idField record
  refine ⟨storedRecord_storedRecord idField record, hid, ?_, erase_storedRecord idField record,
    fun hne value => ?_, storedRecord_shownRecord idField record⟩
  · rw [hid]
    exact get?_storedRecord_eq idField record
  · rw [get?_alias_storedRecord hne]
    split
    · next hcontains => rw [and_iff_right hcontains]
    · next hcontains => simp [hcontains]

/-- Digits of either case, under the alias alone and beside another identifier. -/
theorem storedRecord_canonical_of_both_fields :
    let hex : Value := .string "507F1f77bcf86cd799439011"
    let native : Value := .objectId (.ofNat 0x507f1f77bcf86cd799439011)
    let moved : Document := [("n", .int32 1), ("_id", native)]
    let kept : Document := [("id", .null), ("_id", native), ("n", .int32 1)]
    storedRecord "_id" [("id", hex), ("n", .int32 1)] = moved ∧
    storedRecord "_id" [("id", .null), ("_id", hex), ("n", .int32 1)] = kept ∧
    "_id" ≠ aliasField ∧
    storedRecord "_id" moved = moved ∧
    storedRecord "_id" (shownRecord "_id" moved) = moved ∧
    storedRecord "_id" kept = kept ∧
    Fields.get? aliasField kept = some .null ∧
    storedRecord "_id" (shownRecord "_id" kept) = kept := by
  intro hex native moved kept
  have hmoved : storedRecord "_id" [("id", hex), ("n", .int32 1)] = moved := rfl
  have hkept : storedRecord "_id" [("id", .null), ("_id", hex), ("n", .int32 1)] = kept := rfl
  have hne : "_id" ≠ aliasField := by decide
  obtain ⟨hagain, -, -, -, -, hback⟩ :=
    storedRecord_canonical "_id" [("id", hex), ("n", .int32 1)]
  obtain ⟨hagain', -, -, -, halias, hback'⟩ :=
    storedRecord_canonical "_id" [("id", .null), ("_id", hex), ("n", .int32 1)]
  rw [hmoved] at hagain hback
  rw [hkept] at hagain' hback' halias
  exact ⟨hmoved, hkept, hne, hagain, hback, hagain', (halias hne .null).2 ⟨rfl, rfl⟩, hback'⟩

end Identifier

end DocumentStore
