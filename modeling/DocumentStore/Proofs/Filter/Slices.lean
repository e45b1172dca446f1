import DocumentStore.Proofs.Filter.Places

/-!
# Slices on character boundaries

A text is addressed by its bytes.  A slice exists where it does not end before it starts, and both
its ends are boundaries between characters; the boundaries are the lengths of what a text starts
with.  A byte below 128 at a boundary is the character there.
-/

namespace DocumentStore.Filter

/-! ## Bytes -/

def utf8 (source : List Char) : List UInt8 := source.flatMap String.utf8EncodeChar

theorem utf8_toList (text : String) : utf8 text.toList = text.toByteArray.data.toList := by
  rw [← String.utf8Encode_toList, List.utf8Encode, List.toList_data_toByteArray, utf8]

theorem getElem?_utf8_toList {text : String} {place : String.Pos.Raw}
    (h : place < text.rawEndPos) :
    (utf8 text.toList)[place.byteIdx]? = some (text.getUTF8Byte place h) := by
  rw [utf8_toList, Array.getElem?_toList]
  exact Array.getElem?_eq_getElem _

theorem utf8Length_concat (front : List Char) (c : Char) :
    utf8Length (front ++ [c]) = utf8Length front + c.utf8Size :=
  utf8Length_append front [c]

theorem utf8_append (front back : List Char) : utf8 (front ++ back) = utf8 front ++ utf8 back :=
  List.flatMap_append

theorem length_utf8 (source : List Char) : (utf8 source).length = utf8Length source := by
  induction source with
  | nil => rfl
  | cons c source ih =>
      rw [utf8, List.flatMap_cons, List.length_append, String.length_utf8EncodeChar, ← utf8, ih,
        utf8Length]

theorem utf8ByteSize_ofList (source : List Char) :
    (String.ofList source).utf8ByteSize = utf8Length source := by
  rw [← length_utf8]
  simp [utf8, String.utf8ByteSize, List.utf8Encode]

def leadByte (c : Char) : UInt8 := (String.utf8EncodeChar c).headD 0

theorem leadByte_eq_iff {byte : UInt8} (hbyte : byte < 0x80) (c : Char) :
    leadByte c = byte ↔ c.toNat = byte.toNat := by
  have hsmall : byte.toNat < 128 := hbyte
  have hval : c.val.toNat = c.toNat := rfl
  rw [leadByte, String.utf8EncodeChar, ← UInt8.toNat_inj]
  -- the first of several bytes is above 128
  split_ifs <;> simp only [List.headD_cons, UInt8.toNat_ofNat'] <;> omega

theorem getElem?_utf8 {source before behind : List Char} {c : Char}
    (hsource : source = before ++ c :: behind) :
    (utf8 source)[utf8Length before]? = some (leadByte c) := by
  obtain ⟨lead, more, hbytes⟩ := List.exists_cons_of_ne_nil (@String.utf8EncodeChar_ne_nil c)
  have hlead : leadByte c = lead := by rw [leadByte, hbytes, List.headD_cons]
  rw [hsource, utf8_append, ← length_utf8, List.getElem?_append_right (Nat.le_refl _),
    Nat.sub_self, utf8, List.flatMap_cons, hbytes, hlead]
  rfl

/-! ## Boundaries -/

/-- No character of the text reaches over the place. -/
def IsBoundary (source : List Char) (place : Nat) : Prop :=
  String.Pos.Raw.IsValid (String.ofList source) ⟨place⟩

instance (source : List Char) (place : Nat) : Decidable (IsBoundary source place) :=
  inferInstanceAs (Decidable (String.Pos.Raw.IsValid _ _))

theorem isBoundary_iff {source : List Char} {place : Nat} :
    IsBoundary source place ↔
      ∃ before behind, source = before ++ behind ∧ place = utf8Length before := by
  rw [IsBoundary, String.Pos.Raw.isValid_ofList]
  constructor
  · rintro ⟨count, hplace⟩
    exact ⟨source.take count, source.drop count, (List.take_append_drop count source).symm,
      by rw [← utf8ByteSize_ofList, ← hplace]⟩
  · rintro ⟨before, behind, rfl, rfl⟩
    exact ⟨before.length, by rw [List.take_left, utf8ByteSize_ofList]⟩

theorem isBoundary_toList {text : String} {place : Nat} :
    IsBoundary text.toList place ↔ String.Pos.Raw.IsValid text ⟨place⟩ := by
  rw [IsBoundary, String.ofList_toList]

theorem isBoundary_append (before behind : List Char) :
    IsBoundary (before ++ behind) (utf8Length before) :=
  isBoundary_iff.2 ⟨before, behind, rfl, rfl⟩

/-! ## Slices -/

/-- The text from one byte up to another, unless that is no slice. -/
def slice? (source : List Char) (first last : Nat) : Option (List Char) :=
  if first ≤ last ∧ IsBoundary source first ∧ IsBoundary source last then
    some (slice source first last)
  else none

variable {source before middle behind : List Char} {first last : Nat}

theorem slice?_of_boundaries (hle : first ≤ last) (hfirst : IsBoundary source first)
    (hlast : IsBoundary source last) : slice? source first last = some (slice source first last) :=
  if_pos ⟨hle, hfirst, hlast⟩

theorem slice?_eq (hsource : source = before ++ middle ++ behind)
    (hfirst : first = utf8Length before) (hlast : last = utf8Length (before ++ middle)) :
    slice? source first last = some middle := by
  have hle : first ≤ last := by
    rw [hfirst, hlast, utf8Length_append]
    omega
  rw [slice?_of_boundaries hle, slice_eq before middle behind hsource hfirst hlast]
  · rw [hsource, hfirst, List.append_assoc]
    exact isBoundary_append before (middle ++ behind)
  · rw [hsource, hlast]
    exact isBoundary_append (before ++ middle) behind

example : slice? ['é'] 1 2 = none := by decide

/-- What stands from a byte on. -/
def behind? (source : List Char) (first : Nat) : Option (List Char) :=
  slice? source first (utf8 source).length

theorem behind?_eq (hsource : source = before ++ behind) (hfirst : first = utf8Length before) :
    behind? source first = some behind := by
  have hend : source = before ++ behind ++ [] := by rw [hsource, List.append_nil]
  apply slice?_eq hend hfirst
  rw [length_utf8, hsource]

end DocumentStore.Filter
