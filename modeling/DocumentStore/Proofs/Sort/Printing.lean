import DocumentStore.Proofs.Text.Pieces
import DocumentStore.Sort
import Mathlib.Data.List.Basic

/-!
# Sort orders read back from their texts

Nothing is escaped in the text of a sort order, so a key is read back only if its field is one
word without a comma.  Reading makes no other keys, whatever the text is.
-/

namespace DocumentStore

namespace Direction

theorem ofWord_word (direction : Direction) : ofWord direction.word.toList = direction := by
  cases direction <;> decide

theorem isBlank_of_mem_word (direction : Direction) :
    ∀ c ∈ direction.word.toList, Text.isBlank c = false := by
  have hall : direction.word.toList.all (!Text.isBlank ·) = true := by
    cases direction <;> decide
  simpa using hall

end Direction

namespace SortKey

/-- The field is one word: it is not empty, and there is no comma and no blank in it. -/
structure IsWord (key : SortKey) : Prop where
  nonempty : key.field ≠ ""
  commaless : ',' ∉ key.field.toList
  solid : ∀ c ∈ key.field.toList, Text.isBlank c = false

variable {key : SortKey}

theorem text_toList (key : SortKey) :
    key.text.toList = key.field.toList ++ ' ' :: key.direction.word.toList := by
  rw [text, String.toList_append, String.toList_append, List.append_assoc]
  rfl

theorem words_text (h : key.IsWord) :
    Text.words key.text.toList = [key.field.toList, key.direction.word.toList] := by
  have hne : key.field.toList ≠ [] := by simpa using h.nonempty
  have hword_ne : key.direction.word.toList ≠ [] := by
    cases key.direction <;> decide
  rw [text_toList, Text.words_pair h.solid hne key.direction.isBlank_of_mem_word hword_ne]

theorem ofEntry?_text (h : key.IsWord) : ofEntry? key.text.toList = some key := by
  simp only [words_text h, ofEntry?, String.ofList_toList, Direction.ofWord_word]

theorem comma_notMem_text (h : key.IsWord) : ',' ∉ key.text.toList := by
  have hword : ',' ∉ key.direction.word.toList := by
    cases key.direction <;> decide
  rw [text_toList, List.mem_append, List.mem_cons]
  rintro (hfield | hblank | hdirection)
  · exact h.commaless hfield
  · exact absurd hblank (by decide)
  · exact hword hdirection

theorem exists_word_of_ofEntry? {entry : List Char} (h : ofEntry? entry = some key) :
    ∃ word ∈ Text.words entry, key.field = String.ofList word := by
  unfold ofEntry? at h
  cases hwords : Text.words entry with
  | nil => simp [hwords] at h
  | cons field words =>
      rw [hwords] at h
      refine ⟨field, List.mem_cons_self, ?_⟩
      cases words with
      | nil => cases h; rfl
      | cons word words => cases h; rfl

theorem isWord_of_ofEntry? {entry : List Char} (hentry : ',' ∉ entry)
    (h : ofEntry? entry = some key) : key.IsWord := by
  obtain ⟨word, hword, hfield⟩ := exists_word_of_ofEntry? h
  obtain ⟨hne, hchars⟩ := Text.of_mem_words hword
  have htext : key.field.toList = word := by rw [hfield, String.toList_ofList]
  constructor
  · intro hempty
    rw [hempty] at htext
    exact hne htext.symm
  · rw [htext]
    exact fun hcomma => hentry (hchars ',' hcomma).1
  · rw [htext]
    exact fun c hc => (hchars c hc).2

end SortKey

namespace SortOrder

variable {order : SortOrder}

theorem isWord_of_mem_ofText {text : String} {key : SortKey} (h : key ∈ ofText text) :
    key.IsWord := by
  obtain ⟨entry, hentry, hkey⟩ := List.mem_filterMap.1 h
  have hcommaless : ',' ∉ entry := by
    intro hcomma
    exact absurd (Text.of_mem_splitWhere hentry hcomma).2 (by decide)
  exact SortKey.isWord_of_ofEntry? hcommaless hkey

theorem splitOn_text (hne : order ≠ []) (h : ∀ key ∈ order, key.IsWord) :
    Text.splitOn ',' order.text.toList = order.map fun key => key.text.toList := by
  have hentries : order.text.toList =
      List.intercalate [','] (order.map fun key => key.text.toList) := by
    rw [text, String.toList_intercalate, List.map_map]
    rfl
  rw [hentries, Text.splitOn_intercalate (by simpa using hne)]
  intro entry hentry
  obtain ⟨key, hkey, rfl⟩ := List.mem_map.1 hentry
  exact SortKey.comma_notMem_text (h key hkey)

theorem ofText_text (h : ∀ key ∈ order, key.IsWord) : ofText order.text = order := by
  by_cases hne : order = []
  · rw [hne]
    rfl
  · rw [ofText, splitOn_text hne h, List.filterMap_map]
    calc order.filterMap (fun key => SortKey.ofEntry? key.text.toList)
        = order.filterMap some :=
          List.filterMap_congr fun key hkey => SortKey.ofEntry?_text (h key hkey)
      _ = order := List.filterMap_some

/-- An order is read back from its text just when every field is one word without a comma.  What
is read from a text has only such fields, so writing it and reading it again changes nothing. -/
theorem ofText_text_iff_isWord (order : SortOrder) (text : String) :
    (ofText order.text = order ↔ ∀ key ∈ order, key.IsWord) ∧
    (∀ key ∈ ofText text, key.IsWord) ∧
    ofText (ofText text).text = ofText text := by
  refine ⟨⟨fun h key hkey => ?_, ofText_text⟩, fun _ => isWord_of_mem_ofText,
    ofText_text fun _ => isWord_of_mem_ofText⟩
  rw [← h] at hkey
  exact isWord_of_mem_ofText hkey

/-- The text of a field with a blank and a comma in it is read as two other keys. -/
example : ofText (text [⟨"full name,age", .desc⟩]) = [⟨"full", .asc⟩, ⟨"age", .desc⟩] := by
  decide

end SortOrder

end DocumentStore
