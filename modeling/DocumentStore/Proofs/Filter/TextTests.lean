import DocumentStore.Proofs.Filter.Segments
import DocumentStore.Proofs.Text.Pieces

/-!
# Texts that a field is tested against

A percent sign at an end of the text lets anything stand there, and all other characters stand for
themselves.  A test accepts the records with such a string in the field, alone or in an array.
-/

namespace DocumentStore

/-- The value is the string, or an array with the string among its elements. -/
def Value.OffersText (value : Value) (s : String) : Prop :=
  value = .string s ∨ ∃ items, value = .array items ∧ .string s ∈ items

theorem Value.comparand_eq_text_iff {value : Value} {s : String} :
    value.comparand = .text s ↔ value = .string s := by
  cases value <;> simp [comparand]

theorem Value.text_mem_testedValues_iff {value : Value} {s : String} :
    .text s ∈ value.testedValues ↔ value.OffersText s := by
  rw [testedValues.eq_def, List.mem_cons, eq_comm, comparand_eq_text_iff, OffersText]
  cases value with
  | array items => simp [comparand_eq_text_iff]
  | _ => simp

theorem Pattern.isFoundIn_iff {test : String → Bool} {stored : Value} :
    isFoundIn test stored = true ↔ ∃ s, stored.OffersText s ∧ test s = true := by
  rw [isFoundIn, List.any_eq_true]
  constructor
  · rintro ⟨candidate, hcandidate, hmatch⟩
    cases candidate with
    | text s => exact ⟨s, Value.text_mem_testedValues_iff.1 hcandidate, hmatch⟩
    | _ => cases hmatch
  · rintro ⟨s, hoffers, hmatch⟩
    exact ⟨.text s, Value.text_mem_testedValues_iff.2 hoffers, hmatch⟩

/-- The wildcards of a text that has a percent sign at the given ends. -/
def Wildcards.ofEnds (leading trailing : Bool) : Wildcards :=
  match leading, trailing with
  | true, true => .bothEnds
  | false, true => .atEnd
  | true, false => .atStart
  | false, false => .nowhere

theorem Wildcards.fits_ofEnds (leading trailing : Bool) (inner text : List Char) :
    (ofEnds leading trailing).Fits inner text ↔
      match leading, trailing with
      | false, true => inner <+: text
      | true, false => inner <:+ text
      | _, _ => inner <:+: text := by
  cases leading <;> cases trailing <;> rfl

namespace Filter

theorem cutWildcards_cons (text : List Char) :
    cutWildcards ('%' :: text) = (.ofEnds true (text.getLast? == some '%'),
      if text.getLast? == some '%' then text.dropLast else text) := by
  rw [cutWildcards, Text.dropEnd?_eq]
  cases text.getLast? == some '%' <;> rfl

theorem cutWildcards_of_head? {text : List Char} (h : text.head? ≠ some '%') :
    cutWildcards text = (.ofEnds false (text.getLast? == some '%'),
      if text.getLast? == some '%' then text.dropLast else text) := by
  rw [cutWildcards, Text.dropEnd?_eq]
  · cases text.getLast? == some '%' <;> rfl
  · rintro rest rfl
    exact h rfl

/-- A sign alone is cut off in front, so it is not there to be cut off behind. -/
theorem cutWildcards_eq (text : List Char) :
    let leading := text.head? == some '%'
    let rest := if leading then text.tail else text
    let trailing := rest.getLast? == some '%'
    cutWildcards text =
      (.ofEnds leading trailing, if trailing then rest.dropLast else rest) := by
  intro leading rest trailing
  by_cases hhead : text.head? = some '%'
  · obtain ⟨behind, rfl⟩ := List.head?_eq_some_iff.1 hhead
    exact cutWildcards_cons behind
  · have hleading : leading = false := beq_false_of_ne hhead
    have hrest : rest = text := if_neg (by simp [hleading])
    rw [cutWildcards_of_head? hhead, hleading, ← hrest]

theorem evaluate_textTest {reader : PatternReader} (hreader : reader.MatchesEscaped)
    (field : List Char) {value : List Char} (record : Document) {wildcards : Wildcards}
    {inner : List Char}
    (hcut : cutWildcards (Literal.ofToken value).text.toList = (wildcards, inner)) :
    ∃ hit, (textTest field value).evaluate reader record = .ok hit ∧
      (hit = true ↔ ∃ stored s, record.valueOf? (String.ofList field) = some stored ∧
        stored.OffersText s ∧ wildcards.Fits inner s.toList) := by
  rw [textTest, hcut, Predicate.evaluate]
  cases hfound : record.valueOf? (String.ofList field) with
  | none => exact ⟨false, rfl, by simp⟩
  | some stored =>
      obtain ⟨test, htest, hmatches⟩ := hreader.anchored wildcards inner
      rw [Pattern.accepts, htest]
      refine ⟨_, rfl, ?_⟩
      simp [Pattern.isFoundIn_iff, hmatches]

/-- Under an engine that takes escaped texts literally, the test of a field against a text has an
answer on every record, whatever has been tested before.  Of the text of the literal, one percent
sign is cut off in front and then one behind, and the characters that are left are looked for as
they are. -/
theorem answer_like_iff {reader : PatternReader} (hreader : reader.MatchesEscaped)
    (field value : List Char) (record : Document) (tests : List (Document × Predicate)) :
    let text := (Literal.ofToken value).text.toList
    let leading := text.head? == some '%'
    let rest := if leading then text.tail else text
    let trailing := rest.getLast? == some '%'
    let inner := if trailing then rest.dropLast else rest
    ∃ hit, ((Evaluator.afterTests reader tests).test reader record
        (condition field .like value)).1 = .ok hit ∧
      (hit = true ↔ ∃ stored s, record.valueOf? (String.ofList field) = some stored ∧
        stored.OffersText s ∧
        match leading, trailing with
        | false, true => inner <+: s.toList
        | true, false => inner <:+ s.toList
        | _, _ => inner <:+: s.toList) := by
  intro text leading rest trailing inner
  have hanswer := (Evaluator.answers_test record (condition field .like value)
    (Evaluator.faithful_afterTests reader tests)).answer
  obtain ⟨hit, hhit, hiff⟩ := evaluate_textTest hreader field record (cutWildcards_eq text)
  refine ⟨hit, hanswer.trans hhit, hiff.trans (exists₂_congr fun stored s => ?_)⟩
  exact Iff.rfl.and (Iff.rfl.and (Wildcards.fits_ofEnds leading trailing inner s.toList))

theorem answer_like_of_metacharacters :
    let value : List Char := ['%', '1', '.', '5', '$']
    let record : Document :=
      [("a", .array [.int32 1, .string "costs 1.5$"]), ("b", .string "costs 1x5$")]
    PatternReader.literal.MatchesEscaped ∧
    (Evaluator.test {} .literal record (condition ['a'] .like value)).1 = .ok true ∧
    (Evaluator.test {} .literal record (condition ['b'] .like value)).1 = .ok false := by
  intro value record
  have hmatches := PatternReader.literal_matchesEscaped
  have hvalue : (Literal.ofToken value).text.toList = value := by decide +kernel
  obtain ⟨hit, hhit, hiff⟩ := answer_like_iff hmatches ['a'] value record []
  obtain ⟨miss, hmiss, hnone⟩ := answer_like_iff hmatches ['b'] value record []
  simp only [hvalue] at hiff hnone
  refine ⟨hmatches, hhit.trans (congrArg Except.ok (hiff.2 ?_)),
    hmiss.trans (congrArg Except.ok ?_)⟩
  · have hends : ['1', '.', '5', '$'] <:+ "costs 1.5$".toList := by decide
    exact ⟨_, _, rfl, .inr ⟨_, rfl, by simp⟩, hends⟩
  · rw [← Bool.not_eq_true, hnone]
    rintro ⟨stored, s, hstored, rfl | ⟨items, rfl, -⟩, hfits⟩
    · cases hstored
      have hends : ['1', '.', '5', '$'] <:+ "costs 1x5$".toList := hfits
      exact absurd hends (by decide)
    · cases hstored

end Filter

end DocumentStore
