import DocumentStore.Proofs.Identifier.NormalForm
import DocumentStore.Proofs.Literal
import DocumentStore.Proofs.Text.Trim

/-!
# Delimited lists of identifiers

A list has the identifiers of its parts at every comma, so commas and blanks at its ends and in a
row count for nothing.  The texts of native identifiers and of integers, with commas between them
and blanks around these, are read as the identifiers that they were written for.
-/

namespace DocumentStore

/-! ## A character beside a piece -/

namespace Text

variable {separator c : Char}

theorem exists_splitOn_cons (h : c ≠ separator) (cs : List Char) :
    ∃ first rest, splitOn separator cs = first :: rest ∧
      splitOn separator (c :: cs) = (c :: first) :: rest := by
  have hc : (c == separator) = false := beq_false_of_ne h
  cases hpieces : splitOn separator cs with
  | nil => exact absurd hpieces (splitWhere_ne_nil _ cs)
  | cons first rest =>
      rw [splitOn] at hpieces
      exact ⟨first, rest, rfl, by simp [splitOn, splitWhere, hc, hpieces]⟩

theorem exists_splitOn_append_singleton (h : c ≠ separator) (cs : List Char) :
    ∃ front last, splitOn separator cs = front ++ [last] ∧
      splitOn separator (cs ++ [c]) = front ++ [last ++ [c]] := by
  induction cs with
  | nil =>
      obtain ⟨first, rest, hnil, hcons⟩ := exists_splitOn_cons h []
      obtain ⟨rfl, rfl⟩ := List.cons.inj hnil
      exact ⟨[], [], rfl, hcons⟩
  | cons d cs ih =>
      obtain ⟨front, last, hcs, hsnoc⟩ := ih
      by_cases hd : d = separator
      · subst hd
        have hcut (rest : List Char) : splitOn d (d :: rest) = [] :: splitOn d rest :=
          splitOn_append_cons d [] rest
        refine ⟨[] :: front, last, ?_, ?_⟩
        · rw [hcut, hcs]
          rfl
        · rw [List.cons_append, hcut, hsnoc]
          rfl
      · obtain ⟨first, rest, hfirst, hcons⟩ := exists_splitOn_cons hd cs
        obtain ⟨first', rest', hfirst', hcons'⟩ := exists_splitOn_cons hd (cs ++ [c])
        rw [List.cons_append, hcons, hcons']
        rw [hcs] at hfirst
        rw [hsnoc] at hfirst'
        -- The piece that gets the character in front is the last one only if it is alone.
        cases front with
        | nil =>
            obtain ⟨rfl, rfl⟩ := List.cons.inj hfirst
            obtain ⟨rfl, rfl⟩ := List.cons.inj hfirst'
            exact ⟨[], d :: last, rfl, rfl⟩
        | cons piece front =>
            obtain ⟨rfl, rfl⟩ := List.cons.inj hfirst
            obtain ⟨rfl, rfl⟩ := List.cons.inj hfirst'
            exact ⟨(d :: piece) :: front, last, rfl, rfl⟩

end Text

/-! ## The elements of a text -/

namespace IdentifierList

def pieces (text : List Char) : List (List Char) :=
  ((Text.splitOn ',' text).map Text.trim).filter (!·.isEmpty)

theorem pieces_append_comma (front back : List Char) :
    pieces (front ++ ',' :: back) = pieces front ++ pieces back := by
  rw [pieces, Text.splitOn_append_cons, List.map_append, List.filter_append]
  rfl

variable {c : Char} {text front back : List Char}

theorem isBlank_of_isSeparator (h : isSeparator c = true) (hc : c ≠ ',') :
    Text.isBlank c = true := by
  simpa [isSeparator, hc] using h

theorem pieces_cons_of_isSeparator (h : isSeparator c = true) (text : List Char) :
    pieces (c :: text) = pieces text := by
  by_cases hc : c = ','
  · rw [hc]
    exact pieces_append_comma [] text
  · have hblank : ∀ d ∈ [c], Text.isBlank d = true := by simpa using isBlank_of_isSeparator h hc
    obtain ⟨first, rest, htext, hcons⟩ := Text.exists_splitOn_cons hc text
    have htrim : Text.trim (c :: first) = Text.trim first := Text.trim_append_left hblank
    rw [pieces, pieces, hcons, htext, List.map_cons, List.map_cons, htrim]

theorem pieces_append_singleton_of_isSeparator (h : isSeparator c = true) (text : List Char) :
    pieces (text ++ [c]) = pieces text := by
  by_cases hc : c = ','
  · rw [hc, pieces_append_comma, show pieces [] = [] from rfl, List.append_nil]
  · have hblank : ∀ d ∈ [c], Text.isBlank d = true := by simpa using isBlank_of_isSeparator h hc
    obtain ⟨front, last, htext, hsnoc⟩ := Text.exists_splitOn_append_singleton hc text
    rw [pieces, pieces, hsnoc, htext, List.map_append, List.map_append, List.map_singleton,
      List.map_singleton, Text.trim_append_right hblank]

theorem pieces_append_left (h : ∀ c ∈ front, isSeparator c = true) :
    pieces (front ++ text) = pieces text := by
  induction front with
  | nil => rfl
  | cons c front ih =>
      rw [List.cons_append, pieces_cons_of_isSeparator (h c List.mem_cons_self)]
      exact ih fun d hd => h d (List.mem_cons_of_mem _ hd)

theorem pieces_append_right (h : ∀ c ∈ back, isSeparator c = true) :
    pieces (text ++ back) = pieces text := by
  induction back generalizing text with
  | nil => rw [List.append_nil]
  | cons c back ih =>
      rw [List.append_cons, ih fun d hd => h d (List.mem_cons_of_mem _ hd)]
      exact pieces_append_singleton_of_isSeparator (h c List.mem_cons_self) text

theorem elements_eq_pieces (text : List Char) : elements text = pieces text := by
  have hfront : ∀ c ∈ text.takeWhile isSeparator, isSeparator c = true :=
    fun _ => List.mem_takeWhile_imp
  have hback : ∀ c ∈ (text.dropWhile isSeparator).rtakeWhile isSeparator, isSeparator c = true :=
    fun _ => List.mem_rtakeWhile_imp
  calc elements text
      = pieces (Text.trimWhere isSeparator text) := rfl
    _ = pieces (text.takeWhile isSeparator ++ (Text.trimWhere isSeparator text ++
          (text.dropWhile isSeparator).rtakeWhile isSeparator)) := by
        rw [pieces_append_left hfront, pieces_append_right hback]
    _ = pieces text := by rw [Text.takeWhile_append_trimWhere_append]

theorem elements_append_comma (front back : List Char) :
    elements (front ++ ',' :: back) = elements front ++ elements back := by
  rw [elements_eq_pieces, elements_eq_pieces, elements_eq_pieces, pieces_append_comma]

theorem elements_surrounded (hfront : ∀ c ∈ front, isSeparator c = true)
    (hback : ∀ c ∈ back, isSeparator c = true) (text : List Char) :
    elements (front ++ text ++ back) = elements text := by
  rw [elements_eq_pieces, elements_eq_pieces, pieces_append_right hback, pieces_append_left hfront]

theorem elements_append_gap {gap : List Char} (hgap : ∀ c ∈ gap, isSeparator c = true)
    (hcomma : ',' ∈ gap) (front back : List Char) :
    elements (front ++ gap ++ back) = elements front ++ elements back := by
  obtain ⟨before, behind, rfl⟩ := List.append_of_mem hcomma
  have hbefore : ∀ c ∈ before, isSeparator c = true :=
    fun c hc => hgap c (List.mem_append_left _ hc)
  have hbehind : ∀ c ∈ behind, isSeparator c = true :=
    fun c hc => hgap c (List.mem_append_right _ (List.mem_cons_of_mem _ hc))
  rw [show front ++ (before ++ ',' :: behind) ++ back = (front ++ before) ++ ',' :: (behind ++ back)
    by simp, elements_append_comma]
  simp only [elements_eq_pieces, pieces_append_right hbefore, pieces_append_left hbehind]

/-! ## Elements as they are written -/

/-- A text that is an element as it stands: there is no comma and no blank in it. -/
def IsElement (text : List Char) : Prop := text ≠ [] ∧ ∀ c ∈ text, isSeparator c = false

theorem elements_padded (htext : IsElement text) (hfront : ∀ c ∈ front, Text.isBlank c = true)
    (hback : ∀ c ∈ back, Text.isBlank c = true) : elements (front ++ text ++ back) = [text] := by
  obtain ⟨hne, hsolid⟩ := htext
  have hseparator {cs : List Char} (h : ∀ c ∈ cs, Text.isBlank c = true) :
      ∀ c ∈ cs, isSeparator c = true := fun c hc => by simp [isSeparator, h c hc]
  have hparts : ∀ c ∈ text, c ≠ ',' ∧ Text.isBlank c = false :=
    fun c hc => by simpa [isSeparator] using hsolid c hc
  have hcut : Text.splitOn ',' text = [text] :=
    Text.splitWhere_of_none fun c hc => beq_false_of_ne (hparts c hc).1
  have htrim : Text.trim text = text :=
    Text.trim_eq_self (fun c hc => (hparts c (List.mem_of_mem_head? hc)).2)
      fun c hc => (hparts c (List.mem_of_getLast? hc)).2
  rw [elements_surrounded (hseparator hfront) (hseparator hback), elements_eq_pieces, pieces, hcut]
  simp [htrim, hne]

end IdentifierList

/-! ## Texts of identifiers -/

theorem ObjectId.isElement_hexDigits (id : ObjectId) : IdentifierList.IsElement id.hexDigits := by
  refine ⟨List.ne_nil_of_length_eq_add_one (Text.Hex.length_encode 24 _), fun c hc => ?_⟩
  have hdigit := Text.Hex.isSome_digit?_of_mem_encode hc
  have hcomma : c ≠ ',' := by
    rintro rfl
    exact absurd hdigit (by decide)
  have hblank : Text.isBlank c = false := by
    refine Bool.eq_false_iff.2 fun hblank => ?_
    rw [Text.Hex.digit?_of_isBlank hblank] at hdigit
    cases hdigit
  simp [IdentifierList.isSeparator, hcomma, hblank]

theorem Decimal.isElement_ofInt (n : Int) : IdentifierList.IsElement (Decimal.ofInt n) := by
  refine ⟨ofInt_ne_nil n, fun c hc => ?_⟩
  have hcode := toNat_of_mem_ofInt hc
  have hcomma : c ≠ ',' := by
    rintro rfl
    exact absurd hcode (by decide)
  have hblank : Text.isBlank c = false := by
    simp [Text.isBlank]
    omega
  simp [IdentifierList.isSeparator, hcomma, hblank]

/-- An integer of 64 bits has fewer characters than a native identifier. -/
theorem ObjectId.ofHex?_ofInt (n : Int64) : ObjectId.ofHex? (Decimal.ofInt n.toInt) = none := by
  have hlow : -9223372036854775808 ≤ n.toInt := n.minValue_le_toInt
  have hhigh : n.toInt ≤ 9223372036854775807 := n.toInt_le
  have hdigits : (Decimal.ofNat n.toInt.natAbs).length ≤ 19 :=
    (Nat.length_toDigits_le_iff (by decide) (by decide)).2 (by omega)
  have hlength : (Decimal.ofInt n.toInt).length ≠ 24 := by
    rw [Decimal.ofInt]
    split
    · rw [List.length_cons]
      omega
    · omega
  rw [ofHex?, if_neg hlength]

namespace Identifier

/-- The identifiers that an element of a list writes without quotes or a point: native ones and
integers of the width that holds them. -/
def IsWritten : Identifier → Prop
  | .native _ | .external (.int32 _) => True
  | .external (.int64 n) => ¬ (Int32.minValue.toInt ≤ n.toInt ∧ n.toInt ≤ Int32.maxValue.toInt)
  | _ => False

theorem isElement_display {id : Identifier} (h : id.IsWritten) :
    IdentifierList.IsElement id.display.toList := by
  cases id with
  | native id =>
      rw [display, ObjectId.toHex, String.toList_ofList]
      exact id.isElement_hexDigits
  | external value =>
      cases value with
      | int32 n | int64 n =>
          rw [display, Value.display, String.toList_ofList]
          · exact Decimal.isElement_ofInt _
          · exact nofun
      | _ => exact h.elim

theorem ofText_ofInt (n : Int64) :
    ofText true (Decimal.ofInt n.toInt) =
      .external (Literal.ofToken (Decimal.ofInt n.toInt)).value := by
  rw [ofText, ObjectId.ofHex?_ofInt]
  rfl

theorem ofText_display {id : Identifier} (h : id.IsWritten) :
    ofText true id.display.toList = id := by
  cases id with
  | native id =>
      rw [display, ObjectId.toHex, String.toList_ofList]
      exact ofText_eq_native id.ofHex?_hexDigits
  | external value =>
      cases value with
      | int32 n =>
          have htext : (external (.int32 n)).display.toList = Decimal.ofInt n.toInt64.toInt := by
            rw [Int32.toInt_toInt64]
            exact String.toList_ofList
          rw [htext, ofText_ofInt, Int32.toInt_toInt64, Literal.value_ofToken_int32]
      | int64 n =>
          have htext : (external (.int64 n)).display.toList = Decimal.ofInt n.toInt :=
            String.toList_ofList
          rw [htext, ofText_ofInt, Literal.value_ofToken_int64 h]
      | _ => exact h.elim

end Identifier

namespace IdentifierList

/-- An identifier in a delimited list, with what stands around its text. -/
structure Entry where
  before : String
  id : Identifier
  behind : String

namespace Entry

def text (entry : Entry) : String := entry.before ++ entry.id.display ++ entry.behind

def IsWritten (entry : Entry) : Prop :=
  (∀ c ∈ entry.before.toList, Text.isBlank c = true) ∧ entry.id.IsWritten ∧
    ∀ c ∈ entry.behind.toList, Text.isBlank c = true

theorem elements_text {entry : Entry} (h : entry.IsWritten) :
    elements entry.text.toList = [entry.id.display.toList] := by
  rw [text, String.toList_append, String.toList_append]
  exact elements_padded (Identifier.isElement_display h.2.1) h.1 h.2.2

end Entry

theorem elements_joined {entries : List Entry} (h : ∀ entry ∈ entries, entry.IsWritten) :
    elements (String.intercalate "," (entries.map Entry.text)).toList =
      entries.map fun entry => entry.id.display.toList := by
  rw [String.toList_intercalate, List.map_map]
  induction entries with
  | nil => rfl
  | cons entry entries ih =>
      have hentry := Entry.elements_text (h entry List.mem_cons_self)
      have hrest := ih fun other hother => h other (List.mem_cons_of_mem _ hother)
      cases entries with
      | nil => simpa using hentry
      | cons next entries =>
          have htext : List.intercalate ",".toList
              ((entry :: next :: entries).map (String.toList ∘ Entry.text)) =
              entry.text.toList ++ ',' :: List.intercalate ",".toList
                ((next :: entries).map (String.toList ∘ Entry.text)) := by
            rw [List.map_cons, List.map_cons, List.intercalate_cons_cons, List.append_assoc]
            rfl
          rw [htext, elements_append_comma, hentry, hrest]
          rfl

theorem identifiers_delimited (text : String) :
    (delimited text).identifiers = (elements text.toList).map (Identifier.ofText true) := rfl

/-- A delimited list has the identifiers of its parts at a comma, and separators around it or in
a row make no difference.  Written identifiers, with any blanks around the commas between them,
are read back in their order. -/
theorem identifiers_of_joined_lists (first second : String) {front gap back : String}
    (hfront : ∀ c ∈ front.toList, isSeparator c = true)
    (hgap : ∀ c ∈ gap.toList, isSeparator c = true) (hcomma : ',' ∈ gap.toList)
    (hback : ∀ c ∈ back.toList, isSeparator c = true)
    {entries : List Entry} (hentries : ∀ entry ∈ entries, entry.IsWritten) :
    (delimited (first ++ "," ++ second)).identifiers =
      (delimited first).identifiers ++ (delimited second).identifiers ∧
    (delimited (first ++ gap ++ second)).identifiers =
      (delimited first).identifiers ++ (delimited second).identifiers ∧
    (delimited (front ++ first ++ back)).identifiers = (delimited first).identifiers ∧
    (delimited (String.intercalate "," (entries.map Entry.text))).identifiers =
      entries.map Entry.id := by
  have hparts {gap : String} (hgap : ∀ c ∈ gap.toList, isSeparator c = true)
      (hcomma : ',' ∈ gap.toList) : (delimited (first ++ gap ++ second)).identifiers =
        (delimited first).identifiers ++ (delimited second).identifiers := by
    rw [identifiers_delimited, String.toList_append, String.toList_append,
      elements_append_gap hgap hcomma, List.map_append]
    rfl
  refine ⟨hparts (List.all_eq_true.1 (by decide)) (by decide), hparts hgap hcomma, ?_, ?_⟩
  · rw [identifiers_delimited, String.toList_append, String.toList_append,
      elements_surrounded hfront hback]
    rfl
  · rw [identifiers_delimited, elements_joined hentries, List.map_map]
    exact List.map_congr_left fun entry hentry =>
      Identifier.ofText_display (hentries entry hentry).2.1

/-- The hexadecimal text of a native identifier stands beside two integers of different width. -/
theorem identifiers_of_three_entries :
    let id : ObjectId := .ofNat 0x507f1f77bcf86cd799439011
    let entries : List Entry :=
      [⟨"", .native id, " "⟩, ⟨"\t", .external (.int32 (-7)), ""⟩,
        ⟨"\u2003", .external (.int64 3000000000), "\n"⟩]
    (∀ entry ∈ entries, entry.IsWritten) ∧
    String.intercalate "," (entries.map Entry.text) =
      "507f1f77bcf86cd799439011 ,\t-7,\u20033000000000\n" ∧
    (delimited "507f1f77bcf86cd799439011 ,\t-7,\u20033000000000\n").identifiers =
      [.native id, .external (.int32 (-7)), .external (.int64 3000000000)] ∧
    (delimited "a, ,42").identifiers =
      (delimited "a").identifiers ++ (delimited "42").identifiers ∧
    (delimited " ,a,").identifiers = (delimited "a").identifiers := by
  intro id entries
  have hwritten : ∀ entry ∈ entries, entry.IsWritten := by
    refine List.forall_mem_cons.2 ⟨?_, List.forall_mem_cons.2 ⟨?_, List.forall_mem_singleton.2 ?_⟩⟩
    · exact ⟨List.all_eq_true.1 (by decide), trivial, List.all_eq_true.1 (by decide)⟩
    · exact ⟨List.all_eq_true.1 (by decide), trivial, List.all_eq_true.1 (by decide)⟩
    · have hwide : (Identifier.external (.int64 3000000000)).IsWritten := by
        rw [Identifier.IsWritten]
        decide
      exact ⟨List.all_eq_true.1 (by decide), hwide, List.all_eq_true.1 (by decide)⟩
  have htext : String.intercalate "," (entries.map Entry.text) =
      "507f1f77bcf86cd799439011 ,\t-7,\u20033000000000\n" := by decide
  obtain ⟨-, hgap, haround, hjoined⟩ :=
    @identifiers_of_joined_lists "a" "42" " ," ", ," "," (List.all_eq_true.1 (by decide))
      (List.all_eq_true.1 (by decide)) (by decide) (List.all_eq_true.1 (by decide)) entries hwritten
  rw [htext] at hjoined
  exact ⟨hwritten, htext, hjoined, hgap, haround⟩

end IdentifierList

end DocumentStore
