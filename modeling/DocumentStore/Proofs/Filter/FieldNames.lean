import DocumentStore.Proofs.Filter.Segments

/-!
# Fields that a filter tests

What stands before the first operator of a segment is the field of its test, even if that is
nothing.  A filter with an operator in every segment tests fields with a name alone exactly when
each segment has a visible character before its first operator.
-/

namespace DocumentStore

def Predicate.field? : Predicate → Option String
  | .compare field .. | .pattern field .. => some field
  | _ => none

namespace Filter

/-- A visible character stands before the first operator. -/
def namesField (segment : List Placed) : Bool :=
  (segment.takeWhile (·.operator?.isNone)).any fun placed =>
    placed.token.text.any (!Text.isBlank ·)

def fieldHead? (segment : List Placed) : Option Char :=
  ((segment.takeWhile (·.operator?.isNone)).flatMap (·.token.text)).find? (!Text.isBlank ·)

theorem namesField_eq (segment : List Placed) :
    namesField segment = (fieldHead? segment).isSome := by
  rw [namesField, fieldHead?, List.isSome_find?, List.any_flatMap]

theorem find?_gappedText {tokens : List Token}
    (hgaps : ∀ token ∈ tokens, ∀ c ∈ token.gap, isSpace c = true) :
    (gappedText tokens).find? (!Text.isBlank ·) =
      (tokens.flatMap (·.text)).find? (!Text.isBlank ·) := by
  induction tokens with
  | nil => rfl
  | cons token tokens ih =>
      have hgap : ∀ c ∈ token.gap, Text.isBlank c = true := fun c hc =>
        isBlank_of_isSpace (hgaps token List.mem_cons_self c hc)
      rw [gappedText_cons, List.flatMap_cons, List.find?_append, List.find?_append,
        List.find?_append, Text.find?_of_isBlank hgap, Option.none_or,
        ih fun other hother => hgaps other (List.mem_cons_of_mem _ hother)]

theorem before_of_splitAtOperator {segment : List Placed} {before behind : List Token}
    {op : Operator} (h : splitAtOperator (segment.map Placed.token) = some (before, op, behind)) :
    before = (segment.takeWhile (·.operator?.isNone)).map Placed.token := by
  induction segment generalizing before with
  | nil => cases h
  | cons placed rest ih =>
      rw [List.map_cons, splitAtOperator] at h
      split at h
      · next found hkind =>
        cases h
        rw [List.takeWhile_cons_of_neg (by simp [Placed.operator?_of_kind hkind])]
        rfl
      · next hkind =>
        obtain ⟨⟨front, other, back⟩, hrest, heq⟩ := Option.map_eq_some_iff.1 h
        cases heq
        rw [List.takeWhile_cons_of_pos (by simp [Placed.operator?_of_ne hkind]), ih hrest]
        rfl

theorem field?_condition (field value : List Char) (op : Operator) :
    (condition field op value).field? = some (String.ofList field) := by
  unfold condition
  split
  · rfl
  · split <;> rfl

theorem isSpace_gap_of_part {source : List Char} {segment : List Placed}
    (h : segment <:+: place 0 (tokens source)) {placed : Placed} (hplaced : placed ∈ segment) :
    ∀ c ∈ placed.token.gap, isSpace c = true := by
  have htoken := List.mem_map_of_mem (f := Placed.token) (h.subset hplaced)
  rw [map_token_place] at htoken
  exact fun _ hc => isSpace_of_mem_gap htoken hc

theorem exists_field?_leaf {source : List Char} {segment : List Placed}
    (hsegment : segment <:+: place 0 (tokens source))
    (hleaf : (Reading.leaf source segment).unrecognized? = none) :
    ∃ field, (Reading.leaf source segment).field? = some field ∧
      field.toList.head? = fieldHead? segment := by
  rw [leaf_of_part hsegment, Filter.segment] at hleaf ⊢
  split at hleaf
  · next before op behind hsplit =>
    refine ⟨_, field?_condition _ _ op, ?_⟩
    have hbefore := before_of_splitAtOperator hsplit
    have hgaps : ∀ token ∈ before, ∀ c ∈ token.gap, isSpace c = true := by
      rw [hbefore, List.forall_mem_map]
      intro placed hplaced
      exact isSpace_gap_of_part hsegment ((List.takeWhile_prefix _).subset hplaced)
    rw [String.toList_ofList, ← trim_gappedText hgaps, Text.head?_trim, find?_gappedText hgaps,
      hbefore, List.flatMap_map, fieldHead?]
  · cases hleaf

theorem field?_leaf_iff {source : List Char} {segment : List Placed}
    (hsegment : segment <:+: place 0 (tokens source))
    (hleaf : (Reading.leaf source segment).unrecognized? = none) :
    (Reading.leaf source segment).field? = some "" ↔ namesField segment = false := by
  obtain ⟨field, hfield, hhead⟩ := exists_field?_leaf hsegment hleaf
  rw [hfield, Option.some_inj, namesField_eq, ← hhead]
  simp

theorem infix_of_mem_segments {source : List Char} {segment : List Placed}
    (h : segment ∈ segments source) : segment <:+: place 0 (tokens source) := by
  rw [segments] at h
  split at h
  · cases h
  · obtain ⟨piece, hpiece, rfl⟩ := List.mem_map.1 h
    exact (List.dropWhile_suffix _).isInfix.trans (Reading.infix_of_mem_splitOnP hpiece)

/-- A filter that is not refused tests fields with a name alone exactly when every segment of its
text names one. -/
theorem field?_ne_empty_iff {text : String} (h : (Source.text text).tree.unrecognized? = none) :
    (∀ leaf ∈ (Source.text text).tree.leaves, leaf.field? ≠ some "") ↔
      ∀ segment ∈ segments text.toList, namesField segment = true := by
  rw [Predicate.unrecognized?_eq_findSome?, List.findSome?_eq_none_iff] at h
  rw [leaves_tree] at h ⊢
  split
  · next hblank =>
    have hnone : segments text.toList = [] := if_pos hblank
    rw [hnone]
    exact iff_of_true (by simp [Predicate.field?]) nofun
  · next hvisible =>
    rw [if_neg hvisible, List.forall_mem_map] at h
    rw [List.forall_mem_map]
    refine forall₂_congr fun segment hsegment => ?_
    have hfield := field?_leaf_iff (infix_of_mem_segments hsegment) (h segment hsegment)
    rw [Ne, hfield, Bool.not_eq_false]

theorem field?_ne_empty_of_two_tests :
    let text := "not a = 1 and b like 'x%'"
    (Source.text text).tree.unrecognized? = none ∧
    (∀ segment ∈ segments text.toList, namesField segment = true) ∧
    ∀ leaf ∈ (Source.text text).tree.leaves, leaf.field? ≠ some "" := by
  intro text
  have htokens : tokens text.toList =
      [⟨.not, [], "not".toList⟩, ⟨.word, [' '], ['a']⟩,
        ⟨.operator (.comparison .eq), [' '], ['=']⟩, ⟨.word, [' '], ['1']⟩,
        ⟨.connective .and, [' '], "and".toList⟩, ⟨.word, [' '], ['b']⟩,
        ⟨.operator .like, [' '], "like".toList⟩, ⟨.quoted, [' '], "'x%'".toList⟩] := by
    decide +kernel
  have hvisible : text.toList.all Text.isBlank = false := by decide
  have haccepted : (Source.text text).tree.unrecognized? = none := by
    rw [Source.tree, parse_of_not_blank hvisible, htokens]
    rfl
  have hnamed : ∀ segment ∈ segments text.toList, namesField segment = true := by
    rw [segments, if_neg (Bool.eq_false_iff.1 hvisible), htokens]
    decide
  exact ⟨haccepted, hnamed, (field?_ne_empty_iff haccepted).2 hnamed⟩

/-- A text with nothing before its operator is accepted as a test of the empty field. -/
theorem field?_of_bare_operator :
    (Source.text "= 1").tree = .compare "" .eq (.int32 1) ∧
    (Source.text "= 1").tree.unrecognized? = none ∧
    ∃ leaf ∈ (Source.text "= 1").tree.leaves, leaf.field? = some "" := by
  have htokens : tokens "= 1".toList =
      [⟨.operator (.comparison .eq), [], ['=']⟩, ⟨.word, [' '], ['1']⟩] := by
    decide +kernel
  have htree : (Source.text "= 1").tree = .compare "" .eq (.int32 1) := by
    rw [Source.tree, parse_of_not_blank (by decide), htokens]
    rfl
  rw [htree]
  exact ⟨rfl, rfl, _, List.mem_singleton_self _, rfl⟩

end Filter

end DocumentStore
