import DocumentStore.Proofs.Document.Splitting
import DocumentStore.Proofs.Json.Numbers
import DocumentStore.Proofs.Json.Strings

/-!
# JSON values read back

A value without floating point numbers is read from its text as that value.  Reading takes two
steps of fuel for a value inside another one, and a value has at least one character.
-/

namespace DocumentStore.Json

/-- The values that a text writes exactly: integers of 64 bits, and objects of distinct keys. -/
inductive IsExact : Json → Prop
  | null : IsExact .null
  | bool (b : Bool) : IsExact (.bool b)
  | int {n : Int} (hwide : IsWide n) : IsExact (.int n)
  | string (s : String) : IsExact (.string s)
  | array {items : List Json} (hitems : ∀ item ∈ items, IsExact item) : IsExact (.array items)
  | object {fields : List (String × Json)} (hkeys : (Fields.keys fields).Nodup)
    (hvalues : ∀ field ∈ fields, IsExact field.2) : IsExact (.object fields)

variable {json : Json} {items : List Json} {fields : List (String × Json)}

/-- The text behind a value does not continue a number. -/
def EndsNumber (rest : List Char) : Prop := ∀ c ∈ rest.head?, isNumberChar c = false

/-- A value is read from its text, whatever ends it.  The text starts neither with a blank nor
as the end of an array does, so that it is found behind an opening bracket. -/
structure ReadsBack (json : Json) : Prop where
  starts : ∃ c cs, json.text.toList = c :: cs ∧ isJsonBlank c = false ∧ c ≠ ']'
  reads : ∀ fuel rest, EndsNumber rest → 2 * json.text.toList.length ≤ fuel →
    readValue? fuel (json.text.toList ++ rest) = some (json, rest)

/-! ## Which value a text starts -/

theorem skipBlanks_cons {c : Char} (h : isJsonBlank c = false) (rest : List Char) :
    skipBlanks (c :: rest) = c :: rest :=
  List.dropWhile_cons_of_neg (by rw [h]; exact Bool.false_ne_true)

theorem readValue?_quote (fuel : Nat) (rest : List Char) :
    readValue? (fuel + 1) ('"' :: rest) =
      (readString? rest).map fun (s, left) => (.string (String.ofList s), left) := rfl

theorem readValue?_bracket (fuel : Nat) {c : Char} (hblank : isJsonBlank c = false)
    (hend : c ≠ ']') (rest : List Char) :
    readValue? (fuel + 1) ('[' :: c :: rest) =
      (readItems? fuel (c :: rest)).map fun (items, left) => (Json.array items, left) := by
  rw [readValue?.eq_2, skipBlanks_cons rfl]
  split
  · next heq => exact absurd (List.cons.inj heq).1 (by decide)
  · next heq => exact absurd (List.cons.inj heq).1 (by decide)
  · next heq => exact absurd (List.cons.inj heq).1 (by decide)
  · next heq => exact absurd (List.cons.inj heq).1 (by decide)
  · next heq =>
    obtain rfl := (List.cons.inj heq).2
    rw [skipBlanks_cons hblank]
    split
    · next heq => exact absurd (List.cons.inj heq).1 hend
    · rfl
  · next heq => exact absurd (List.cons.inj heq).1 (by decide)
  · next hopen _ => exact absurd rfl (hopen _)

theorem readValue?_brace (fuel : Nat) (rest : List Char) :
    readValue? (fuel + 1) ('\x7b' :: '"' :: rest) =
      (readMembers? fuel ('"' :: rest)).map fun (fields, left) =>
        (.object (Fields.ofList fields), left) := rfl

theorem isJsonBlank_of_isMark {c : Char} (h : Decimal.IsMark c) : isJsonBlank c = false := by
  simp [isJsonBlank, h.ne (d := ' ') (by decide) rfl, h.ne (d := '\n') (by decide) rfl,
    h.ne (d := '\r') (by decide) rfl, h.ne (d := '\t') (by decide) rfl]

theorem readValue?_mark (fuel : Nat) {c : Char} (h : Decimal.IsMark c) (rest : List Char) :
    readValue? (fuel + 1) (c :: rest) =
      (number? ((c :: rest).takeWhile isNumberChar)).map fun n =>
        (n, (c :: rest).dropWhile isNumberChar) := by
  rw [readValue?.eq_2, skipBlanks_cons (isJsonBlank_of_isMark h)]
  split
  · next heq => exact absurd (List.cons.inj heq).1 (h.ne (by decide) rfl)
  · next heq => exact absurd (List.cons.inj heq).1 (h.ne (by decide) rfl)
  · next heq => exact absurd (List.cons.inj heq).1 (h.ne (by decide) rfl)
  · next heq => exact absurd (List.cons.inj heq).1 (h.ne (by decide) rfl)
  · next heq => exact absurd (List.cons.inj heq).1 (h.ne (by decide) rfl)
  · next heq => exact absurd (List.cons.inj heq).1 (h.ne (by decide) rfl)
  · cases number? ((c :: rest).takeWhile isNumberChar) <;> rfl

/-! ## Values without parts -/

theorem readsBack_null : ReadsBack .null where
  starts := ⟨_, _, rfl, rfl, by decide⟩
  reads
    | fuel + 1, _, _, _ => rfl

theorem readsBack_bool (b : Bool) : ReadsBack (.bool b) := by
  cases b with
  | false =>
      exact ⟨⟨_, _, rfl, rfl, by decide⟩, fun
        | fuel + 1, _, _, _ => rfl⟩
  | true =>
      exact ⟨⟨_, _, rfl, rfl, by decide⟩, fun
        | fuel + 1, _, _, _ => rfl⟩

theorem toList_stringText (s : String) :
    (stringText s).toList = '"' :: (s.toList.flatMap escapeChar ++ ['"']) := by
  simp [stringText]

theorem readsBack_string (s : String) : ReadsBack (.string s) where
  starts := ⟨_, _, toList_stringText s, rfl, by decide⟩
  reads
    | 0, _, _, hfuel => by
        rw [text, toList_stringText, List.length_cons] at hfuel
        omega
    | fuel + 1, rest, _, _ => by
        rw [text, toList_stringText, List.cons_append, List.append_assoc, List.singleton_append,
          readValue?_quote, readString?_written, Option.map_some]
        exact congrArg some (congrArg (Json.string · , rest) String.ofList_toList)

theorem readsBack_int {n : Int} (hwide : IsWide n) : ReadsBack (.int n) := by
  have htext : (Json.int n).text.toList = Decimal.ofInt n := by rw [text, String.toList_ofList]
  obtain ⟨c, cs, hcs⟩ := List.exists_cons_of_ne_nil (Decimal.ofInt_ne_nil n)
  have hmark : Decimal.IsMark c := Decimal.isMark_of_mem_ofInt (hcs ▸ List.mem_cons_self)
  refine ⟨⟨c, cs, htext.trans hcs, isJsonBlank_of_isMark hmark, hmark.ne (by decide) rfl⟩,
    fun fuel rest hrest hfuel => ?_⟩
  cases fuel with
  | zero =>
      rw [htext, hcs, List.length_cons] at hfuel
      omega
  | succ fuel =>
      obtain ⟨htake, hdrop⟩ :=
        Numeral.span_append (fun _ => isNumberChar_of_mem_ofInt (n := n)) hrest
      rw [hcs, List.cons_append] at htake hdrop
      rw [htext, hcs, List.cons_append, readValue?_mark fuel hmark, htake, hdrop, ← hcs,
        number?_ofInt hwide, Option.map_some]

/-! ## Arrays -/

def itemChars (items : List Json) : List Char := (String.intercalate "," (itemTexts items)).toList

theorem itemChars_singleton (item : Json) : itemChars [item] = item.text.toList := by
  simp [itemChars, itemTexts]

theorem itemChars_cons_cons (item next : Json) (items : List Json) :
    itemChars (item :: next :: items) = item.text.toList ++ ',' :: itemChars (next :: items) := by
  simp [itemChars, itemTexts, String.intercalate_cons_cons, List.append_assoc]

theorem exists_itemChars (item : Json) (items : List Json) :
    ∃ cs, itemChars (item :: items) = item.text.toList ++ cs := by
  cases items with
  | nil => exact ⟨[], (itemChars_singleton item).trans (List.append_nil _).symm⟩
  | cons next items => exact ⟨_, itemChars_cons_cons item next items⟩

theorem readItems?_last {fuel : Nat} {item : Json} {cs rest : List Char}
    (h : readValue? fuel cs = some (item, ']' :: rest)) :
    readItems? (fuel + 1) cs = some ([item], rest) := by
  rw [readItems?.eq_2, h]
  rfl

theorem readItems?_next {fuel : Nat} {item : Json} {cs rest : List Char}
    (h : readValue? fuel cs = some (item, ',' :: rest)) :
    readItems? (fuel + 1) cs =
      (readItems? fuel rest).map fun (items, left) => (item :: items, left) := by
  rw [readItems?.eq_2, h]
  change (readItems? fuel rest).bind _ = _
  cases readItems? fuel rest <;> rfl

theorem readItems?_itemChars (hne : items ≠ []) (hitems : ∀ item ∈ items, ReadsBack item)
    (rest : List Char) {fuel : Nat} (hfuel : 2 * (itemChars items).length + 1 ≤ fuel) :
    readItems? fuel (itemChars items ++ ']' :: rest) = some (items, rest) := by
  induction items generalizing fuel with
  | nil => exact absurd rfl hne
  | cons item items ih =>
      -- one step for the list and one for the item, which is written with a character or more
      obtain ⟨fuel, rfl⟩ : ∃ more, fuel = more + 1 := ⟨fuel - 1, by omega⟩
      have hitem := hitems item List.mem_cons_self
      cases items with
      | nil =>
          rw [itemChars_singleton] at hfuel ⊢
          exact readItems?_last (hitem.reads fuel _ (fun _ h => by cases h; rfl) (by omega))
      | cons next items =>
          rw [itemChars_cons_cons, List.length_append, List.length_cons] at hfuel
          rw [itemChars_cons_cons, List.append_assoc, List.cons_append,
            readItems?_next (hitem.reads fuel _ (fun _ h => by cases h; rfl) (by omega)),
            ih (List.cons_ne_nil _ _) (List.forall_mem_cons.1 hitems).2 (by omega),
            Option.map_some]

theorem readsBack_array (hitems : ∀ item ∈ items, ReadsBack item) : ReadsBack (.array items) := by
  have htext : (Json.array items).text.toList = '[' :: (itemChars items ++ [']']) := by
    simp [text, itemChars]
  refine ⟨⟨_, _, htext, rfl, by decide⟩, fun fuel rest _ hfuel => ?_⟩
  rw [htext, List.length_cons, List.length_append, List.length_singleton] at hfuel
  obtain ⟨fuel, rfl⟩ : ∃ more, fuel = more + 1 := ⟨fuel - 1, by omega⟩
  cases items with
  | nil =>
      rw [htext]
      rfl
  | cons item items =>
      obtain ⟨c, cs, hcs, hblank, hend⟩ := (hitems item List.mem_cons_self).starts
      obtain ⟨more, hmore⟩ := exists_itemChars item items
      have hstart :
          itemChars (item :: items) ++ ']' :: rest = c :: (cs ++ more ++ ']' :: rest) := by
        rw [hmore, hcs, List.cons_append, List.cons_append]
      rw [htext, List.cons_append, List.append_assoc, List.singleton_append, hstart,
        readValue?_bracket fuel hblank hend, ← hstart,
        readItems?_itemChars (List.cons_ne_nil _ _) hitems rest (by omega), Option.map_some]

/-! ## Objects -/

def memberChars (fields : List (String × Json)) : List Char :=
  (String.intercalate "," (fieldTexts fields)).toList

theorem memberChars_singleton (key : String) (value : Json) :
    memberChars [(key, value)] = (stringText key).toList ++ ':' :: value.text.toList := by
  simp [memberChars, fieldTexts]

theorem memberChars_cons_cons (key : String) (value : Json) (next : String × Json)
    (fields : List (String × Json)) :
    memberChars ((key, value) :: next :: fields) =
      (stringText key).toList ++ ':' ::
        (value.text.toList ++ ',' :: memberChars (next :: fields)) := by
  simp [memberChars, fieldTexts, String.intercalate_cons_cons, List.append_assoc]

/-- What a key and the value behind it come to. -/
theorem readMembers?_name (fuel : Nat) (name cs : List Char) :
    readMembers? (fuel + 1) ('"' :: (name.flatMap escapeChar ++ '"' :: ':' :: cs)) = (do
      let (value, rest) ← readValue? fuel cs
      match skipBlanks rest with
      | ',' :: rest =>
        let (fields, left) ← readMembers? fuel rest
        return ((String.ofList name, value) :: fields, left)
      | '\x7d' :: left => return ([(String.ofList name, value)], left)
      | _ => none) := by
  rw [readMembers?.eq_2, skipBlanks_cons rfl]
  change (readString? (name.flatMap escapeChar ++ '"' :: ':' :: cs)).bind _ = _
  rw [readString?_written, Option.bind_some]
  rfl

theorem readMembers?_last {fuel : Nat} (key : String) {value : Json} {cs rest : List Char}
    (h : readValue? fuel cs = some (value, '\x7d' :: rest)) :
    readMembers? (fuel + 1) ((stringText key).toList ++ ':' :: cs) =
      some ([(key, value)], rest) := by
  rw [toList_stringText, List.cons_append, List.append_assoc, List.singleton_append,
    readMembers?_name, String.ofList_toList, h]
  rfl

theorem readMembers?_next {fuel : Nat} (key : String) {value : Json} {cs rest : List Char}
    (h : readValue? fuel cs = some (value, ',' :: rest)) :
    readMembers? (fuel + 1) ((stringText key).toList ++ ':' :: cs) =
      (readMembers? fuel rest).map fun (fields, left) => ((key, value) :: fields, left) := by
  rw [toList_stringText, List.cons_append, List.append_assoc, List.singleton_append,
    readMembers?_name, String.ofList_toList, h]
  change (readMembers? fuel rest).bind _ = _
  cases readMembers? fuel rest <;> rfl

theorem readMembers?_memberChars (hne : fields ≠ []) (hvalues : ∀ field ∈ fields, ReadsBack field.2)
    (rest : List Char) {fuel : Nat} (hfuel : 2 * (memberChars fields).length + 1 ≤ fuel) :
    readMembers? fuel (memberChars fields ++ '\x7d' :: rest) = some (fields, rest) := by
  induction fields generalizing fuel with
  | nil => exact absurd rfl hne
  | cons field fields ih =>
      obtain ⟨key, value⟩ := field
      obtain ⟨fuel, rfl⟩ : ∃ more, fuel = more + 1 := ⟨fuel - 1, by omega⟩
      have hvalue := hvalues (key, value) List.mem_cons_self
      cases fields with
      | nil =>
          rw [memberChars_singleton, List.length_append, List.length_cons] at hfuel
          rw [memberChars_singleton, List.append_assoc, List.cons_append]
          exact readMembers?_last key
            (hvalue.reads fuel _ (fun _ h => by cases h; rfl) (by dsimp only; omega))
      | cons next fields =>
          rw [memberChars_cons_cons, List.length_append, List.length_cons, List.length_append,
            List.length_cons] at hfuel
          rw [memberChars_cons_cons, List.append_assoc, List.cons_append, List.append_assoc,
            List.cons_append, readMembers?_next key
              (hvalue.reads fuel _ (fun _ h => by cases h; rfl) (by dsimp only; omega)),
            ih (List.cons_ne_nil _ _) (List.forall_mem_cons.1 hvalues).2 (by omega),
            Option.map_some]

theorem exists_memberChars (field : String × Json) (fields : List (String × Json)) :
    ∃ cs, memberChars (field :: fields) = '"' :: cs := by
  obtain ⟨key, value⟩ := field
  cases fields with
  | nil => exact ⟨_, by rw [memberChars_singleton, toList_stringText, List.cons_append]⟩
  | cons next fields =>
      exact ⟨_, by rw [memberChars_cons_cons, toList_stringText, List.cons_append]⟩

theorem readsBack_object (hkeys : (Fields.keys fields).Nodup)
    (hvalues : ∀ field ∈ fields, ReadsBack field.2) : ReadsBack (.object fields) := by
  have htext : (Json.object fields).text.toList = '\x7b' :: (memberChars fields ++ ['\x7d']) := by
    simp [text, memberChars]
  refine ⟨⟨_, _, htext, rfl, by decide⟩, fun fuel rest _ hfuel => ?_⟩
  rw [htext, List.length_cons, List.length_append, List.length_singleton] at hfuel
  obtain ⟨fuel, rfl⟩ : ∃ more, fuel = more + 1 := ⟨fuel - 1, by omega⟩
  cases fields with
  | nil =>
      rw [htext]
      rfl
  | cons field fields =>
      obtain ⟨cs, hcs⟩ := exists_memberChars field fields
      have hfields : Fields.ofList (field :: fields) = field :: fields :=
        Fields.insertAll_of_new hkeys fun _ _ _ h => nomatch h
      rw [htext, List.cons_append, List.append_assoc, List.singleton_append, hcs, List.cons_append,
        readValue?_brace, ← List.cons_append, ← hcs,
        readMembers?_memberChars (List.cons_ne_nil _ _) hvalues rest (by omega), Option.map_some]
      exact congrArg (fun fields => some (Json.object fields, rest)) hfields

/-! ## Whole texts -/

theorem IsExact.readsBack (h : IsExact json) : ReadsBack json := by
  induction h with
  | null => exact readsBack_null
  | bool b => exact readsBack_bool b
  | int hwide => exact readsBack_int hwide
  | string s => exact readsBack_string s
  | array _ ih => exact readsBack_array ih
  | object hkeys _ ih => exact readsBack_object hkeys ih

/-- What is written of a value without floating point numbers is read as that value. -/
theorem read?_text (h : IsExact json) : read? json.text = some json := by
  have hread := h.readsBack.reads (2 * json.text.toList.length + 2) [] (fun _ h => nomatch h)
    (by omega)
  rw [List.append_nil] at hread
  rw [read?, hread]
  rfl

end DocumentStore.Json
