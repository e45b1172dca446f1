import DocumentStore.Proofs.Filter.Blanks
import DocumentStore.Proofs.Filter.FieldNames
import DocumentStore.Proofs.Filter.Shapes

/-!
# Tokens at the ends of a filter

Tokens at an end of a filter can be exchanged for others where these make the same operand of the
run that they are in.  A plain word in place of a keyword that was read leaves a tree with fewer
leaves, or with as many that say more in front of their operators.
-/

namespace DocumentStore.Filter

def Token.isOperator (token : Token) : Bool :=
  match token.kind with
  | .operator _ => true
  | _ => false

/-- Whether a token is more than a part of a text, behind the others of its run. -/
def TokenKind.isRead (before : List Token) : TokenKind → Bool
  | .connective _ => true
  | .not => before.all (·.kind == .not)
  | .operator _ => before.all (!·.isOperator)
  | .quoted | .word => false

theorem uncut_of_isConnective {tokens : List Token} {connective : Connective}
    (h : ∀ token ∈ tokens, token.isConnective = false) :
    ∀ token ∈ tokens, (token.kind == .connective connective) = false := by
  intro token htoken
  rw [beq_eq_false_iff_ne]
  intro hkind
  have hplain := h token htoken
  rw [Token.isConnective, hkind] at hplain
  cases hplain

/-! ## Runs with more at an end -/

section

variable {α : Type} {cut : α → Bool}

theorem splitOnP_append_of_forall {front : List α} (h : ∀ x ∈ front, cut x = false)
    (xs : List α) : (front ++ xs).splitOnP cut = (xs.splitOnP cut).modifyHead (front ++ ·) := by
  obtain ⟨first, rest, hsplit⟩ := List.exists_cons_of_ne_nil (List.splitOnP_ne_nil cut xs)
  rw [hsplit]
  induction front with
  | nil => exact hsplit
  | cons x front ih =>
      rw [List.forall_mem_cons] at h
      rw [List.cons_append, List.splitOnP_cons_eq_if_modifyHead, if_neg (by simp [h.1]), ih h.2]
      rfl

theorem exists_splitOnP_append (cut : α → Bool) (xs : List α) :
    ∃ pieces, ∀ back, (∀ x ∈ back, cut x = false) →
      (xs ++ back).splitOnP cut = pieces ++ [xs.rtakeWhile (!cut ·) ++ back] := by
  have hlast : ∀ x ∈ xs.rtakeWhile (!cut ·), cut x = false := by
    intro x hx
    simpa using List.mem_rtakeWhile_imp hx
  have hsplit := List.rdropWhile_append_rtakeWhile (p := (!cut ·)) (l := xs)
  have hone (back : List α) (hback : ∀ x ∈ back, cut x = false) :
      (xs.rtakeWhile (!cut ·) ++ back).splitOnP cut = [xs.rtakeWhile (!cut ·) ++ back] :=
    List.splitOnP_eq_singleton fun x hx => (List.mem_append.1 hx).elim (hlast x) (hback x)
  generalize xs.rtakeWhile (!cut ·) = run at *
  rcases List.eq_nil_or_concat (xs.rdropWhile (!cut ·)) with hnil | ⟨front, separator, hfront⟩
  · rw [hnil, List.nil_append] at hsplit
    exact ⟨[], fun back hback => by rw [← hsplit, hone back hback]; rfl⟩
  · have hcut : cut separator = true := by
      have hne : xs.rdropWhile (!cut ·) ≠ [] := by simp [hfront]
      have hstop := List.rdropWhile_last_not (!cut ·) xs hne
      simpa [hfront] using hstop
    have hxs : xs = front ++ separator :: run := by simpa [hfront] using hsplit.symm
    refine ⟨front.splitOnP cut, fun back hback => ?_⟩
    rw [hxs, List.append_assoc, List.cons_append, List.splitOnP_append_cons _ _ hcut,
      hone back hback]

end

/-! ## Exchanges that readers do not see -/

def AlikeBefore (fits : List Token → Prop) (front front' : List Token)
    (read : List Token → Predicate) : Prop :=
  ∀ rest, fits rest → read (front ++ rest) = read (front' ++ rest)

def AlikeBehind (back back' : List Token) (read : List Token → Predicate) : Prop :=
  ∀ tokens, read (tokens ++ back) = read (tokens ++ back')

section

variable {read : List Token → Predicate} {connective : Connective}

theorem AlikeBefore.level {fits : List Token → Prop} {front front' : List Token}
    (hfits : ∀ rest part, part <+: rest → fits rest → fits part)
    (hfront : ∀ token ∈ front, token.isConnective = false)
    (hfront' : ∀ token ∈ front', token.isConnective = false)
    (h : AlikeBefore fits front front' read) (node : List Predicate → Predicate) :
    AlikeBefore fits front front' (Reading.level Token.kind connective node read) := by
  intro rest hrest
  obtain ⟨first, pieces, hsplit, hfirst, -⟩ :=
    Reading.exists_splitOnP_eq_cons (fun token : Token => token.kind == .connective connective) rest
  rw [Reading.level, Reading.level, Reading.pieces, Reading.pieces,
    splitOnP_append_of_forall (uncut_of_isConnective hfront),
    splitOnP_append_of_forall (uncut_of_isConnective hfront'), hsplit,
    List.modifyHead_cons, List.modifyHead_cons, List.map_cons, List.map_cons,
    h first (hfits rest first hfirst hrest)]

theorem AlikeBehind.level {back back' : List Token}
    (hback : ∀ token ∈ back, token.isConnective = false)
    (hback' : ∀ token ∈ back', token.isConnective = false) (h : AlikeBehind back back' read)
    (node : List Predicate → Predicate) :
    AlikeBehind back back' (Reading.level Token.kind connective node read) := by
  intro tokens
  obtain ⟨pieces, hsplit⟩ :=
    exists_splitOnP_append (fun token : Token => token.kind == .connective connective) tokens
  rw [Reading.level, Reading.level, Reading.pieces, Reading.pieces,
    hsplit back (uncut_of_isConnective hback), hsplit back' (uncut_of_isConnective hback'),
    List.map_append, List.map_append, List.map_singleton, List.map_singleton, h]

end

/-! ## Segments with more at an end -/

theorem splitAtOperator_cons {token : Token} (h : token.isOperator = false) (rest : List Token) :
    splitAtOperator (token :: rest) =
      (splitAtOperator rest).map fun (before, op, behind) => (token :: before, op, behind) := by
  rw [splitAtOperator]
  split
  · next op hkind =>
    rw [Token.isOperator, hkind] at h
    cases h
  · rfl

theorem splitAtOperator_append {front : List Token}
    (h : ∀ token ∈ front, token.isOperator = false) (rest : List Token) :
    splitAtOperator (front ++ rest) =
      (splitAtOperator rest).map fun (before, op, behind) => (front ++ before, op, behind) := by
  induction front with
  | nil => simp
  | cons token front ih =>
      rw [List.forall_mem_cons] at h
      rw [List.cons_append, splitAtOperator_cons h.1, ih h.2, Option.map_map]
      rfl

theorem splitAtOperator_of_plain {run : List Token}
    (h : ∀ token ∈ run, token.isOperator = false) : splitAtOperator run = none := by
  have hall := splitAtOperator_append h []
  rwa [List.append_nil] at hall

theorem splitAtOperator_of_split {before : List Token} {token : Token} {op : Operator}
    (h : ∀ token ∈ before, token.isOperator = false) (hkind : token.kind = .operator op)
    (behind : List Token) :
    splitAtOperator (before ++ token :: behind) = some (before, op, behind) := by
  have hfirst : splitAtOperator (token :: behind) = some ([], op, behind) := by
    rw [splitAtOperator, hkind]
  rw [splitAtOperator_append h, hfirst]
  simp

theorem operator_cases (run : List Token) :
    (∀ token ∈ run, token.isOperator = false) ∨
    ∃ before token op behind, run = before ++ token :: behind ∧
      (∀ token ∈ before, token.isOperator = false) ∧ token.kind = .operator op := by
  have hsplit := List.takeWhile_append_dropWhile (p := (!·.isOperator)) (l := run)
  cases hrest : run.dropWhile (!·.isOperator) with
  | nil =>
      refine .inl fun token htoken => ?_
      simpa using List.dropWhile_eq_nil_iff.1 hrest token htoken
  | cons token behind =>
      have hop := List.head?_dropWhile_not (!·.isOperator) run
      rw [hrest] at hop hsplit
      cases hkind : token.kind with
      | operator op =>
          refine .inr ⟨_, token, op, behind, hsplit.symm, fun other hother => ?_, hkind⟩
          simpa using List.mem_takeWhile_imp hother
      | _ => simp [Token.isOperator, hkind] at hop

theorem segment_of_plain {run : List Token} (h : ∀ token ∈ run, token.isOperator = false) :
    segment run = .unrecognized (String.ofList (Text.trim (sourceText run))) := by
  rw [segment, splitAtOperator_of_plain h]

theorem segment_of_split {before : List Token} {token : Token} {op : Operator}
    (h : ∀ token ∈ before, token.isOperator = false) (hkind : token.kind = .operator op)
    (behind : List Token) :
    segment (before ++ token :: behind) =
      condition (Text.trim (sourceText before)) op (Text.trim (sourceText behind)) := by
  rw [segment, splitAtOperator_of_split h hkind]

/-- Tokens in front are a part of the field, or of a text that is refused. -/
theorem segment_congr_front {front front' rest : List Token}
    (hfront : ∀ token ∈ front, token.isOperator = false)
    (hfront' : ∀ token ∈ front', token.isOperator = false)
    (htext : ∀ part, part <+: rest →
      Text.trim (sourceText (front ++ part)) = Text.trim (sourceText (front' ++ part))) :
    segment (front ++ rest) = segment (front' ++ rest) := by
  rcases operator_cases rest with hplain | ⟨before, token, op, behind, rfl, hplain, hkind⟩
  · rw [segment_of_plain (List.forall_mem_append.2 ⟨hfront, hplain⟩),
      segment_of_plain (List.forall_mem_append.2 ⟨hfront', hplain⟩),
      htext rest (List.prefix_refl rest)]
  · rw [← List.append_assoc, ← List.append_assoc,
      segment_of_split (List.forall_mem_append.2 ⟨hfront, hplain⟩) hkind,
      segment_of_split (List.forall_mem_append.2 ⟨hfront', hplain⟩) hkind,
      htext before (List.prefix_append _ _)]

/-- Tokens behind are a part of the value, or of a text that is refused. -/
theorem segment_congr_back {run back back' : List Token}
    (hplain : (∃ token ∈ run, token.isOperator = true) ∨
      (∀ token ∈ back, token.isOperator = false) ∧ ∀ token ∈ back', token.isOperator = false)
    (htext : ∀ part,
      Text.trim (sourceText (part ++ back)) = Text.trim (sourceText (part ++ back'))) :
    segment (run ++ back) = segment (run ++ back') := by
  rcases operator_cases run with hrun | ⟨before, token, op, behind, rfl, hbefore, hkind⟩
  · rcases hplain with ⟨token, htoken, hop⟩ | ⟨hback, hback'⟩
    · rw [hrun token htoken] at hop
      cases hop
    · rw [segment_of_plain (List.forall_mem_append.2 ⟨hrun, hback⟩),
        segment_of_plain (List.forall_mem_append.2 ⟨hrun, hback'⟩), htext run]
  · rw [List.append_assoc, List.append_assoc, List.cons_append, List.cons_append,
      segment_of_split hbefore hkind, segment_of_split hbefore hkind, htext behind]

/-! ## Filters with more at an end -/

theorem isRead_append {kind : TokenKind} {before : List Token} (h : kind.isRead before = false)
    (front : List Token) : kind.isRead (front ++ before) = false := by
  cases kind with
  | not | operator op =>
      rw [TokenKind.isRead] at h ⊢
      rw [List.all_append, h, Bool.and_false]
  | _ => exact h

theorem isOperator_of_isRead {token : Token} {run : List Token}
    (hplain : ∀ other ∈ run, other.isOperator = false) (h : token.kind.isRead run = false) :
    token.isOperator = false := by
  rw [Token.isOperator]
  split
  · next op hkind =>
    rw [hkind, TokenKind.isRead, List.all_eq_false] at h
    obtain ⟨other, hother, hop⟩ := h
    exact absurd (hplain other hother) (by simpa using hop)
  · rfl

theorem isConnective_of_isRead {token : Token} {run : List Token}
    (h : token.kind.isRead run = false) : token.isConnective = false := by
  rw [Token.isConnective]
  split
  · next c hkind =>
    rw [hkind] at h
    cases h
  · rfl

theorem operand_append {run back : List Token}
    (hidle : ∀ token ∈ back, token.kind.isRead run = false) :
    Reading.operand Token.kind segment (run ++ back) =
      Predicate.not^[(run.takeWhile (·.kind == .not)).length]
        (segment (run.dropWhile (·.kind == .not) ++ back)) := by
  rw [Reading.operand]
  by_cases hall : ∀ token ∈ run, (token.kind == .not) = true
  · have hstop : ∀ token ∈ back.head?, ¬ (token.kind == .not) = true := by
      intro token htoken hnot
      have hidle := hidle token (List.mem_of_head? htoken)
      rw [beq_iff_eq.1 hnot, TokenKind.isRead, List.all_eq_true.2 hall] at hidle
      cases hidle
    have hback : back.takeWhile (·.kind == .not) = [] ∧ back.dropWhile (·.kind == .not) = back := by
      cases back with
      | nil => exact ⟨rfl, rfl⟩
      | cons token back =>
          exact ⟨List.takeWhile_cons_of_neg (hstop token rfl),
            List.dropWhile_cons_of_neg (hstop token rfl)⟩
    rw [List.takeWhile_append_of_pos hall, List.dropWhile_append_of_pos hall, hback.1, hback.2,
      List.append_nil, List.takeWhile_eq_self_iff.2 hall, List.dropWhile_eq_nil_iff.2 hall]
    rfl
  · have hrest : run.dropWhile (·.kind == .not) ≠ [] := mt List.dropWhile_eq_nil_iff.1 hall
    have hfront : (run.takeWhile (·.kind == .not)).length ≠ run.length := by
      intro hlength
      have hsame := (List.takeWhile_prefix _).eq_of_length hlength
      exact hall (List.takeWhile_eq_self_iff.1 hsame)
    rw [List.takeWhile_append, List.dropWhile_append, if_neg hfront, if_neg (by simpa using hall)]

theorem operand_congr_back {run back back' : List Token}
    (hidle : ∀ token ∈ back, token.kind.isRead run = false)
    (hidle' : ∀ token ∈ back', token.kind.isRead run = false)
    (htext : ∀ part,
      Text.trim (sourceText (part ++ back)) = Text.trim (sourceText (part ++ back'))) :
    Reading.operand Token.kind segment (run ++ back) =
      Reading.operand Token.kind segment (run ++ back') := by
  rw [operand_append hidle, operand_append hidle', segment_congr_back ?_ htext]
  by_cases hplain : ∀ token ∈ run, token.isOperator = false
  · exact .inr ⟨fun token htoken => isOperator_of_isRead hplain (hidle token htoken),
      fun token htoken => isOperator_of_isRead hplain (hidle' token htoken)⟩
  · obtain ⟨token, htoken, hop⟩ : ∃ token ∈ run, token.isOperator = true := by simpa using hplain
    refine .inl ⟨token, ?_, hop⟩
    rw [← List.takeWhile_append_dropWhile (p := (·.kind == .not)) (l := run)] at htoken
    refine (List.mem_append.1 htoken).resolve_left fun hnot => ?_
    have hkind := List.mem_takeWhile_imp hnot
    rw [Token.isOperator, beq_iff_eq.1 hkind] at hop
    cases hop

/-- Tokens behind a filter can be exchanged where none of them is read. -/
theorem ors_congr_back {tokens back back' : List Token}
    (hidle : ∀ token ∈ back, token.kind.isRead (tokens.rtakeWhile (!·.isConnective)) = false)
    (hidle' : ∀ token ∈ back', token.kind.isRead (tokens.rtakeWhile (!·.isConnective)) = false)
    (htext : ∀ part,
      Text.trim (sourceText (part ++ back)) = Text.trim (sourceText (part ++ back'))) :
    Reading.ors Token.kind segment (tokens ++ back) =
      Reading.ors Token.kind segment (tokens ++ back') := by
  have hsplit := List.rdropWhile_append_rtakeWhile (p := (!·.isConnective)) (l := tokens)
  have hrun : ∀ token ∈ tokens.rtakeWhile (!·.isConnective), token.isConnective = false := by
    intro token htoken
    simpa using List.mem_rtakeWhile_imp htoken
  generalize tokens.rtakeWhile (!·.isConnective) = run at *
  have hback : ∀ token ∈ run ++ back, token.isConnective = false :=
    List.forall_mem_append.2 ⟨hrun, fun token htoken => isConnective_of_isRead (hidle token htoken)⟩
  have hback' : ∀ token ∈ run ++ back', token.isConnective = false :=
    List.forall_mem_append.2
      ⟨hrun, fun token htoken => isConnective_of_isRead (hidle' token htoken)⟩
  have hoperand : AlikeBehind (run ++ back) (run ++ back')
      (Reading.operand Token.kind segment) := by
    intro front
    rw [← List.append_assoc, ← List.append_assoc]
    exact operand_congr_back (fun token htoken => isRead_append (hidle token htoken) front)
      (fun token htoken => isRead_append (hidle' token htoken) front) htext
  have hands : AlikeBehind (run ++ back) (run ++ back') (Reading.ands Token.kind segment) :=
    hoperand.level hback hback' .and
  have hnors : AlikeBehind (run ++ back) (run ++ back') (Reading.nors Token.kind segment) :=
    hands.level hback hback' .nor
  rw [← hsplit, List.append_assoc, List.append_assoc]
  exact hnors.level hback hback' .or _

/-- Tokens in front of a filter can be exchanged where they make the same operand of what stands
behind them. -/
theorem ors_congr_front {fits : List Token → Prop} {front front' rest : List Token}
    (hfits : ∀ rest part, part <+: rest → fits rest → fits part)
    (hfront : ∀ token ∈ front, token.isConnective = false)
    (hfront' : ∀ token ∈ front', token.isConnective = false)
    (h : AlikeBefore fits front front' (Reading.operand Token.kind segment)) (hrest : fits rest) :
    Reading.ors Token.kind segment (front ++ rest) =
      Reading.ors Token.kind segment (front' ++ rest) := by
  have hands : AlikeBefore fits front front' (Reading.ands Token.kind segment) :=
    h.level hfits hfront hfront' .and
  have hnors : AlikeBefore fits front front' (Reading.nors Token.kind segment) :=
    hands.level hfits hfront hfront' .nor
  exact hnors.level hfits hfront hfront' .or rest hrest

/-! ## Headings -/

def visible (cs : List Char) : Nat := cs.countP (!Text.isBlank ·)

theorem visible_append (cs ds : List Char) : visible (cs ++ ds) = visible cs + visible ds :=
  List.countP_append

theorem visible_of_isBlank {cs : List Char} (h : ∀ c ∈ cs, Text.isBlank c = true) :
    visible cs = 0 :=
  List.countP_eq_zero.2 fun c hc => by simp [h c hc]

theorem visible_dropWhile (cs : List Char) : visible (cs.dropWhile Text.isBlank) = visible cs := by
  have hfront : visible (cs.takeWhile Text.isBlank) = 0 :=
    visible_of_isBlank fun _ hc => List.mem_takeWhile_imp hc
  have hsplit := visible_append (cs.takeWhile Text.isBlank) (cs.dropWhile Text.isBlank)
  rw [List.takeWhile_append_dropWhile, hfront, Nat.zero_add] at hsplit
  exact hsplit.symm

theorem visible_trim (cs : List Char) : visible (Text.trim cs) = visible cs := by
  have hreverse (ds : List Char) : visible ds.reverse = visible ds := List.countP_reverse
  rw [Text.trim, Text.trimWhere, Text.trimRight, Text.trimLeft, hreverse, visible_dropWhile,
    hreverse, visible_dropWhile]

end DocumentStore.Filter

namespace DocumentStore.Predicate

/-- What a leaf has in front of its operator, or all that it has without one. -/
def heading : Predicate → List Char
  | .compare field .. | .pattern field .. => field.toList
  | .unrecognized text => text.toList
  | _ => []

def weight (tree : Predicate) : Nat :=
  Filter.visible (tree.leaves.flatMap heading)

/-- The tree has fewer leaves, or as many with more in front of their operators. -/
def Coarser (tree other : Predicate) : Prop :=
  tree.leaves.length < other.leaves.length ∨
    tree.leaves.length = other.leaves.length ∧ other.weight < tree.weight

theorem Coarser.ne {tree other : Predicate} (h : tree.Coarser other) : tree ≠ other := by
  rintro rfl
  rcases h with h | ⟨-, h⟩
  · exact Nat.lt_irrefl _ h
  · exact Nat.lt_irrefl _ h

theorem Coarser.trans {tree middle other : Predicate} (h : tree.Coarser middle)
    (h' : middle.Coarser other) : tree.Coarser other := by
  rw [Coarser] at *
  omega

end DocumentStore.Predicate

namespace DocumentStore.Filter

theorem heading_condition (field value : List Char) (op : Operator) :
    (condition field op value).heading = field := by
  unfold condition
  split
  · exact String.toList_ofList
  · split <;> exact String.toList_ofList

def headOf (run : List Token) : List Token := run.takeWhile (!·.isOperator)

def headings (runs : List (List Token)) : List Char :=
  runs.flatMap fun run => sourceText (headOf run)

theorem visible_heading_segment (run : List Token) :
    visible (segment run).heading = visible (sourceText (headOf run)) := by
  rcases operator_cases run with hplain | ⟨before, token, op, behind, rfl, hplain, hkind⟩
  · have hall : headOf run = run := List.takeWhile_eq_self_iff.2 fun token htoken => by
      simp [hplain token htoken]
    rw [segment_of_plain hplain, hall, Predicate.heading, String.toList_ofList, visible_trim]
  · have hop : token.isOperator = true := by rw [Token.isOperator, hkind]
    have hhead : headOf (before ++ token :: behind) = before := by
      rw [headOf, List.takeWhile_append_of_pos fun other hother => by simp [hplain other hother],
        List.takeWhile_cons_of_neg (by simp [hop]), List.append_nil]
    rw [segment_of_split hplain hkind, hhead, heading_condition, visible_trim]

theorem leaves_ors_segment (tokens : List Token) :
    (Reading.ors Token.kind segment tokens).leaves =
      (Reading.runs Token.kind tokens).map segment :=
  Reading.leaves_ors isLeaf_segment tokens

theorem weight_ors_segment (tokens : List Token) :
    (Reading.ors Token.kind segment tokens).weight =
      visible (headings (Reading.runs Token.kind tokens)) := by
  rw [Predicate.weight, leaves_ors_segment]
  induction Reading.runs Token.kind tokens with
  | nil => rfl
  | cons run runs ih =>
      rw [headings] at ih ⊢
      rw [List.map_cons, List.flatMap_cons, List.flatMap_cons, visible_append, visible_append, ih,
        visible_heading_segment]

/-! ## Plain words in place of keywords -/

theorem visible_sourceText_le (tokens : List Token) :
    visible (sourceText tokens) ≤ visible (gappedText tokens) := by
  cases tokens with
  | nil => exact Nat.le_refl _
  | cons token tokens =>
      rw [sourceText_cons, gappedText_cons, List.append_assoc, visible_append token.gap]
      exact Nat.le_add_left _ _

theorem sourceText_append {tokens : List Token} (hne : tokens ≠ []) (others : List Token) :
    sourceText (tokens ++ others) = sourceText tokens ++ gappedText others := by
  cases tokens with
  | nil => exact absurd rfl hne
  | cons token tokens =>
      rw [List.cons_append, sourceText_cons, sourceText_cons, gappedText_append, List.append_assoc]

/-- Negations in front of a run only add to what is visible there. -/
theorem visible_headOf_le (run : List Token) :
    visible (sourceText (headOf (run.dropWhile (·.kind == .not)))) ≤
      visible (gappedText (headOf run)) := by
  have hnots : ∀ token ∈ run.takeWhile (·.kind == .not), (!token.isOperator) = true := by
    intro token htoken
    have hkind := List.mem_takeWhile_imp htoken
    rw [Token.isOperator, beq_iff_eq.1 hkind]
    rfl
  have hhead : headOf run = run.takeWhile (·.kind == .not) ++
      headOf (run.dropWhile (·.kind == .not)) := by
    conv_lhs => rw [← List.takeWhile_append_dropWhile (p := (·.kind == .not)) (l := run)]
    exact List.takeWhile_append_of_pos hnots
  rw [hhead, gappedText_append, visible_append]
  exact Nat.le_trans (visible_sourceText_le _) (Nat.le_add_left _ _)

theorem cuts_kind : Reading.cuts Token.kind = Token.isConnective := rfl

theorem exists_runs_append_front (rest : List Token) :
    ∃ first runs, ∀ front, (∀ token ∈ front, token.isConnective = false) →
      Reading.runs Token.kind (front ++ rest) =
        (front ++ first).dropWhile (·.kind == .not) :: runs := by
  obtain ⟨first, pieces, hsplit⟩ :=
    List.exists_cons_of_ne_nil (List.splitOnP_ne_nil Token.isConnective rest)
  refine ⟨first, pieces.map (·.dropWhile (·.kind == .not)), fun front hfront => ?_⟩
  rw [Reading.runs, cuts_kind, splitOnP_append_of_forall hfront, hsplit]
  rfl

theorem exists_runs_append_back (tokens : List Token) :
    ∃ runs, ∀ back, (∀ token ∈ back, token.isConnective = false) →
      Reading.runs Token.kind (tokens ++ back) = runs ++
        [(tokens.rtakeWhile (!·.isConnective) ++ back).dropWhile (·.kind == .not)] := by
  obtain ⟨pieces, hsplit⟩ := exists_splitOnP_append Token.isConnective tokens
  refine ⟨pieces.map (·.dropWhile (·.kind == .not)), fun back hback => ?_⟩
  rw [Reading.runs, cuts_kind, hsplit back hback, List.map_append]
  rfl

/-- A visible text in place of a keyword at the front joins runs, or gives the first run a longer
heading. -/
theorem coarser_front {token : Token} {front rest : List Token}
    (hkeyword : token.kind ≠ .quoted ∧ token.kind ≠ .word)
    (hfront : ∀ other ∈ front, other.isConnective = false ∧ other.isOperator = false)
    (hfirst : ∀ first ∈ front.head?, first.kind ≠ .not)
    (hvisible : 0 < visible (sourceText front)) :
    (Reading.ors Token.kind segment (front ++ rest)).Coarser
      (Reading.ors Token.kind segment (token :: rest)) := by
  have hne : front ≠ [] := by
    rintro rfl
    exact absurd hvisible (by decide)
  obtain ⟨first, runs, hruns⟩ := exists_runs_append_front rest
  have hnew : Reading.runs Token.kind (front ++ rest) = (front ++ first) :: runs := by
    rw [hruns front fun other hother => (hfront other hother).1]
    cases front with
    | nil => exact absurd rfl hne
    | cons other front =>
        rw [List.cons_append, List.dropWhile_cons_of_neg (by simpa using hfirst other rfl)]
  have hhead : visible (sourceText (headOf (front ++ first))) =
      visible (sourceText front) + visible (gappedText (headOf first)) := by
    have happend : headOf (front ++ first) = front ++ headOf first :=
      List.takeWhile_append_of_pos fun other hother => by simp [(hfront other hother).2]
    rw [happend, sourceText_append hne, visible_append]
  have hold (hplain : token.isConnective = false) : Reading.runs Token.kind (token :: rest) =
      (token :: first).dropWhile (·.kind == .not) :: runs :=
    hruns [token] (List.forall_mem_singleton.2 hplain)
  rw [Predicate.Coarser, weight_ors_segment, weight_ors_segment, leaves_ors_segment,
    leaves_ors_segment, hnew]
  cases hkind : token.kind with
  | quoted => exact absurd hkind hkeyword.1
  | word => exact absurd hkind hkeyword.2
  | connective c =>
      have hcut : token.isConnective = true := by rw [Token.isConnective, hkind]
      have hlength := congrArg List.length (hruns [] (List.forall_mem_nil _))
      simp only [Reading.runs, cuts_kind, List.nil_append, List.length_map, List.length_cons]
        at hlength
      left
      simp only [Reading.runs, cuts_kind, List.splitOnP_cons_eq_if_modifyHead, if_pos hcut,
        List.length_map, List.length_cons, hlength]
      omega
  | not =>
      have hlength := visible_headOf_le first
      rw [hold (by rw [Token.isConnective, hkind]),
        List.dropWhile_cons_of_pos (by simp [hkind])]
      refine .inr ⟨rfl, ?_⟩
      simp only [headings, List.flatMap_cons, visible_append, hhead]
      omega
  | operator op =>
      have hnone : headOf (token :: first) = [] :=
        List.takeWhile_cons_of_neg (by simp [Token.isOperator, hkind])
      rw [hold (by rw [Token.isConnective, hkind]),
        List.dropWhile_cons_of_neg (by simp [hkind])]
      have hempty : visible (sourceText []) = 0 := rfl
      refine .inr ⟨rfl, ?_⟩
      simp only [headings, List.flatMap_cons, visible_append, hhead, hnone, hempty]
      omega

theorem dropWhile_append_of_ne {run : List Token} {token : Token} (h : token.kind ≠ .not) :
    (run ++ [token]).dropWhile (·.kind == .not) = run.dropWhile (·.kind == .not) ++ [token] := by
  have hlast : [token].dropWhile (·.kind == .not) = [token] :=
    List.dropWhile_cons_of_neg (by simpa using h)
  rw [List.dropWhile_append, hlast]
  split
  · next hempty => rw [List.isEmpty_iff.1 hempty, List.nil_append]
  · rfl

theorem visible_sourceText_concat (tokens : List Token) (word : Token) :
    visible (sourceText tokens) + visible word.text ≤ visible (sourceText (tokens ++ [word])) := by
  cases tokens with
  | nil => simp [sourceText, visible]
  | cons token tokens =>
      rw [sourceText_append (List.cons_ne_nil token tokens), visible_append, gappedText_cons,
        gappedText_nil, List.append_nil, visible_append]
      omega

theorem headOf_concat {run : List Token} (hplain : ∀ token ∈ run, token.isOperator = false)
    {word : Token} (hword : word.kind = .word) : headOf (run ++ [word]) = run ++ [word] := by
  have hlast : word.isOperator = false := by rw [Token.isOperator, hword]
  refine List.takeWhile_eq_self_iff.2 fun token htoken => ?_
  rcases List.mem_append.1 htoken with hmem | hmem
  · rw [hplain token hmem, Bool.not_false]
  · rw [List.mem_singleton.1 hmem, hlast, Bool.not_false]

/-- A visible word in place of a keyword that is read at the back joins runs, or gives the last run
a longer heading. -/
theorem coarser_back {tokens : List Token} {token word : Token}
    (hread : token.kind.isRead (tokens.rtakeWhile (!·.isConnective)) = true)
    (hword : word.kind = .word) (hvisible : 0 < visible word.text) :
    (Reading.ors Token.kind segment (tokens ++ [word])).Coarser
      (Reading.ors Token.kind segment (tokens ++ [token])) := by
  obtain ⟨runs, hruns⟩ := exists_runs_append_back tokens
  generalize tokens.rtakeWhile (!·.isConnective) = run at hread hruns
  have hnew : Reading.runs Token.kind (tokens ++ [word]) =
      runs ++ [run.dropWhile (·.kind == .not) ++ [word]] := by
    rw [hruns [word] (List.forall_mem_singleton.2 (by rw [Token.isConnective, hword])),
      dropWhile_append_of_ne (by simp [hword])]
  rw [Predicate.Coarser, weight_ors_segment, weight_ors_segment, leaves_ors_segment,
    leaves_ors_segment, hnew]
  -- Without the keyword what stands before it is the whole heading of the last run.
  have hlonger {last : List Token}
      (hold : Reading.runs Token.kind (tokens ++ [token]) = runs ++ [last])
      (hhead : headOf last = run.dropWhile (·.kind == .not))
      (hplain : ∀ other ∈ run.dropWhile (·.kind == .not), other.isOperator = false) :
      visible (headings (Reading.runs Token.kind (tokens ++ [token]))) <
        visible (headings (runs ++ [run.dropWhile (·.kind == .not) ++ [word]])) := by
    have hmore := visible_sourceText_concat (run.dropWhile (·.kind == .not)) word
    simp only [hold, headings, List.flatMap_append, List.flatMap_singleton, visible_append,
      hhead, headOf_concat hplain hword]
    omega
  cases hkind : token.kind with
  | quoted | word => rw [hkind] at hread; cases hread
  | connective c =>
      have hcut : token.isConnective = true := by rw [Token.isConnective, hkind]
      have hlength := congrArg List.length (hruns [] (List.forall_mem_nil _))
      simp only [Reading.runs, cuts_kind, List.append_nil, List.length_map, List.length_append,
        List.length_singleton] at hlength
      left
      simp only [Reading.runs, cuts_kind, List.splitOnP_append_cons _ _ hcut, List.length_map,
        List.length_append, List.length_singleton, List.splitOnP_nil, hlength]
      omega
  | not =>
      rw [hkind, TokenKind.isRead, List.all_eq_true] at hread
      have hrun : run.dropWhile (·.kind == .not) = [] := List.dropWhile_eq_nil_iff.2 hread
      have hold := hruns [token] (List.forall_mem_singleton.2 (by rw [Token.isConnective, hkind]))
      rw [List.dropWhile_append_of_pos hread, List.dropWhile_cons_of_pos (by simp [hkind])] at hold
      exact .inr ⟨by simp [hold], hlonger hold hrun.symm (by simp [hrun])⟩
  | operator op =>
      rw [hkind, TokenKind.isRead, List.all_eq_true] at hread
      have hplain : ∀ other ∈ run.dropWhile (·.kind == .not), other.isOperator = false := by
        intro other hother
        simpa using hread other ((List.dropWhile_suffix _).subset hother)
      have hold := hruns [token] (List.forall_mem_singleton.2 (by rw [Token.isConnective, hkind]))
      rw [dropWhile_append_of_ne (by simp [hkind])] at hold
      have hhead : headOf (run.dropWhile (·.kind == .not) ++ [token]) =
          run.dropWhile (·.kind == .not) := by
        rw [headOf, List.takeWhile_append_of_pos fun other hother => by simp [hplain other hother],
          List.takeWhile_cons_of_neg (by simp [Token.isOperator, hkind]), List.append_nil]
      exact .inr ⟨by simp [hold], hlonger hold hhead hplain⟩

end DocumentStore.Filter
