import DocumentStore.Proofs.Filter.Lexemes
import DocumentStore.Proofs.Filter.Reading

/-!
# Filters read in their source

A field, a value and an unrecognized segment are slices of the source, from the place of
one token to that of another.  Read by places, a filter gives the tree that the descent
builds from the texts of its tokens.
-/

namespace DocumentStore.Filter

/-! ## Slices -/

def dropBytes (n : Nat) : List Char → List Char
  | [] => []
  | c :: cs => if n = 0 then c :: cs else dropBytes (n - c.utf8Size) cs

def takeBytes (n : Nat) : List Char → List Char
  | [] => []
  | c :: cs => if n = 0 then [] else c :: takeBytes (n - c.utf8Size) cs

def slice (source : List Char) (first last : Nat) : List Char :=
  takeBytes (last - first) (dropBytes first source)

theorem utf8Length_cons_ne_zero (c : Char) (cs : List Char) : utf8Length (c :: cs) ≠ 0 := by
  have hpos := c.utf8Size_pos
  rw [utf8Length]
  omega

theorem utf8Length_cons_sub (c : Char) (cs : List Char) :
    utf8Length (c :: cs) - c.utf8Size = utf8Length cs := by
  rw [utf8Length]
  omega

theorem utf8Length_append (xs ys : List Char) :
    utf8Length (xs ++ ys) = utf8Length xs + utf8Length ys := by
  induction xs with
  | nil => simp [utf8Length]
  | cons c xs ih => simp [utf8Length, ih, Nat.add_assoc]

theorem dropBytes_append (before behind : List Char) :
    dropBytes (utf8Length before) (before ++ behind) = behind := by
  induction before with
  | nil => cases behind <;> simp [utf8Length, dropBytes]
  | cons c before ih =>
      rw [List.cons_append, dropBytes, if_neg (utf8Length_cons_ne_zero c before),
        utf8Length_cons_sub, ih]

theorem takeBytes_append (before behind : List Char) :
    takeBytes (utf8Length before) (before ++ behind) = before := by
  induction before with
  | nil => cases behind <;> simp [utf8Length, takeBytes]
  | cons c before ih =>
      rw [List.cons_append, takeBytes, if_neg (utf8Length_cons_ne_zero c before),
        utf8Length_cons_sub, ih]

theorem slice_eq {source : List Char} {first last : Nat} (before middle behind : List Char)
    (hsource : source = before ++ middle ++ behind) (hfirst : first = utf8Length before)
    (hlast : last = utf8Length (before ++ middle)) : slice source first last = middle := by
  have hlength : last - first = utf8Length middle := by
    rw [hlast, hfirst, utf8Length_append]
    omega
  rw [slice, hlength, hfirst, hsource, List.append_assoc, dropBytes_append, takeBytes_append]

/-! ## Places -/

structure Placed where
  token : Token
  first : Nat
  last : Nat

namespace Placed

def kind (placed : Placed) : TokenKind := placed.token.kind

def operator? (placed : Placed) : Option (Operator × Placed) :=
  match placed.kind with
  | .operator op => some (op, placed)
  | _ => none

end Placed

def place (start : Nat) : List Token → List Placed
  | [] => []
  | token :: rest =>
    let first := start + utf8Length token.gap
    let last := first + utf8Length token.text
    ⟨token, first, last⟩ :: place last rest

theorem map_token_place (start : Nat) (tokens : List Token) :
    (place start tokens).map Placed.token = tokens := by
  induction tokens generalizing start with
  | nil => rfl
  | cons token rest ih => rw [place, List.map_cons, ih]

theorem exists_of_place_eq_append {start : Nat} {tokens : List Token} {front back : List Placed}
    (h : place start tokens = front ++ back) :
    ∃ before behind, tokens = before ++ behind ∧ front = place start before ∧
      back = place (start + utf8Length (gappedText before)) behind := by
  induction front generalizing start tokens with
  | nil => exact ⟨[], tokens, rfl, rfl, h.symm⟩
  | cons placed front ih =>
      cases tokens with
      | nil => cases h
      | cons token rest =>
          rw [place, List.cons_append, List.cons.injEq] at h
          obtain ⟨hplaced, hrest⟩ := h
          obtain ⟨before, behind, htokens, hfront, hback⟩ := ih hrest
          refine ⟨token :: before, behind, by rw [htokens]; rfl, ?_, ?_⟩
          · rw [place, ← hfront, hplaced]
          · rw [hback, gappedText_cons, utf8Length_append, utf8Length_append]
            simp only [Nat.add_assoc]

namespace Reading

def leaf (source : List Char) : List Placed → Predicate
  | [] => .unrecognized ""
  | head :: rest =>
    let stop := (rest.getLastD head).last
    match (head :: rest).findSome? Placed.operator? with
    | none => .unrecognized (String.ofList (Text.trim (slice source head.first stop)))
    | some (op, placed) =>
      condition (Text.trim (slice source head.first placed.first)) op
        (Text.trim (slice source placed.last stop))

def tree (source : List Char) : Predicate :=
  ors Placed.kind (leaf source) (place 0 (tokens source))

end Reading

/-! ## Leaves -/

theorem last_place (start : Nat) (token : Token) (rest : List Token) :
    ((place (start + utf8Length token.gap + utf8Length token.text) rest).getLastD
      ⟨token, start + utf8Length token.gap,
        start + utf8Length token.gap + utf8Length token.text⟩).last =
      start + utf8Length (gappedText (token :: rest)) := by
  induction rest generalizing start token with
  | nil => simp [place, utf8Length_append, Nat.add_assoc]
  | cons next rest ih =>
      rw [place, List.getLastD_cons, ih]
      simp [utf8Length_append, Nat.add_assoc]

theorem Placed.operator?_of_ne {placed : Placed}
    (h : ∀ op, placed.token.kind ≠ .operator op) : placed.operator? = none := by
  rw [operator?, kind]
  split
  · next op hop => exact absurd hop (h op)
  · rfl

theorem Placed.operator?_of_kind {placed : Placed} {op : Operator}
    (h : placed.token.kind = .operator op) : placed.operator? = some (op, placed) := by
  rw [operator?, kind, h]

theorem findSome?_place_of_none {tokens : List Token} (h : splitAtOperator tokens = none)
    (start : Nat) : (place start tokens).findSome? Placed.operator? = none := by
  induction tokens generalizing start with
  | nil => rfl
  | cons token rest ih =>
      rw [splitAtOperator] at h
      split at h
      · cases h
      · next hkind =>
        rw [place, List.findSome?_cons, Placed.operator?_of_ne hkind]
        exact ih (Option.map_eq_none_iff.1 h) _

theorem exists_findSome?_place {tokens before behind : List Token} {op : Operator}
    (h : splitAtOperator tokens = some (before, op, behind)) (start : Nat) :
    ∃ token, tokens = before ++ token :: behind ∧
      (place start tokens).findSome? Placed.operator? =
        some (op, ⟨token, start + utf8Length (gappedText before ++ token.gap),
          start + utf8Length (gappedText before ++ token.gap ++ token.text)⟩) := by
  induction tokens generalizing start before with
  | nil => cases h
  | cons token rest ih =>
      rw [splitAtOperator] at h
      rw [place, List.findSome?_cons]
      split at h
      · next found hkind =>
        cases h
        refine ⟨token, rfl, ?_⟩
        rw [Placed.operator?_of_kind hkind]
        simp [utf8Length_append, Nat.add_assoc]
      · next hkind =>
        obtain ⟨⟨front, other, back⟩, hrest, heq⟩ := Option.map_eq_some_iff.1 h
        cases heq
        obtain ⟨part, htokens, hfound⟩ :=
          ih hrest (start + utf8Length token.gap + utf8Length token.text)
        refine ⟨part, by rw [htokens]; rfl, ?_⟩
        rw [Placed.operator?_of_ne hkind]
        dsimp only
        rw [hfound]
        simp [utf8Length_append, Nat.add_assoc]

theorem trim_gappedText {tokens : List Token}
    (hgaps : ∀ token ∈ tokens, ∀ c ∈ token.gap, isSpace c = true) :
    Text.trim (gappedText tokens) = Text.trim (sourceText tokens) := by
  cases tokens with
  | nil => rfl
  | cons token rest =>
      rw [gappedText_cons, List.append_assoc, sourceText_cons]
      exact Text.trim_append_left fun c hc =>
        isBlank_of_isSpace (hgaps token List.mem_cons_self c hc)

section

variable {source before behind : List Char} {head token : Token} {rest front back : List Token}
  (hsource : source = before ++ gappedText (head :: rest) ++ behind)

include hsource

theorem slice_run :
    slice source (utf8Length before + utf8Length head.gap)
      (utf8Length before + utf8Length (gappedText (head :: rest))) =
      sourceText (head :: rest) := by
  refine slice_eq (before ++ head.gap) (sourceText (head :: rest)) behind ?_
    (utf8Length_append _ _).symm ?_
  · rw [hsource]
    simp [sourceText_cons, List.append_assoc]
  · simp [sourceText_cons, utf8Length_append]

variable (htokens : head :: rest = front ++ token :: back)

include htokens

theorem eq_of_operator :
    source = before ++ (gappedText front ++ token.gap) ++
      (token.text ++ gappedText back ++ behind) := by
  rw [hsource, htokens, gappedText_append, gappedText_cons]
  simp only [List.append_assoc]

/-- The slice before the operator reaches over the gap in front of it. -/
theorem trim_slice_front (hgap : ∀ c ∈ token.gap, isSpace c = true) :
    Text.trim (slice source (utf8Length before + utf8Length head.gap)
      (utf8Length before + utf8Length (gappedText front ++ token.gap))) =
      Text.trim (sourceText front) := by
  have hall := eq_of_operator hsource htokens
  cases front with
  | nil =>
      obtain ⟨rfl, -⟩ := List.cons.inj htokens
      have hslice : slice source (utf8Length before + utf8Length head.gap)
          (utf8Length before + utf8Length (gappedText [] ++ head.gap)) = [] := by
        refine slice_eq (before ++ head.gap) [] (head.text ++ gappedText back ++ behind) ?_
          (utf8Length_append _ _).symm ?_
        · rw [hall]
          simp [List.append_assoc]
        · simp [utf8Length_append]
      rw [hslice]
      rfl
  | cons first front =>
      obtain ⟨rfl, -⟩ := List.cons.inj htokens
      have hslice : slice source (utf8Length before + utf8Length head.gap)
          (utf8Length before + utf8Length (gappedText (head :: front) ++ token.gap)) =
            sourceText (head :: front) ++ token.gap := by
        refine slice_eq (before ++ head.gap) (sourceText (head :: front) ++ token.gap)
          (token.text ++ gappedText back ++ behind) ?_ (utf8Length_append _ _).symm ?_
        · rw [hall]
          simp [sourceText_cons, List.append_assoc]
        · simp [sourceText_cons, utf8Length_append]
      rw [hslice]
      exact Text.trim_append_right fun c hc => isBlank_of_isSpace (hgap c hc)

theorem slice_back :
    slice source (utf8Length before + utf8Length (gappedText front ++ token.gap ++ token.text))
      (utf8Length before + utf8Length (gappedText (head :: rest))) = gappedText back := by
  refine slice_eq (before ++ (gappedText front ++ token.gap ++ token.text)) (gappedText back)
    behind ?_ (utf8Length_append _ _).symm ?_
  · rw [eq_of_operator hsource htokens]
    simp only [List.append_assoc]
  · rw [htokens]
    simp [utf8Length_append]

end

theorem leaf_place (before behind : List Char) {source : List Char} {tokens : List Token}
    (hsource : source = before ++ gappedText tokens ++ behind)
    (hgaps : ∀ token ∈ tokens, ∀ c ∈ token.gap, isSpace c = true) :
    Reading.leaf source (place (utf8Length before) tokens) = segment tokens := by
  cases tokens with
  | nil => rfl
  | cons head rest =>
      have hstop := last_place (utf8Length before) head rest
      rw [segment]
      cases hsplit : splitAtOperator (head :: rest) with
      | none =>
          have hnone := findSome?_place_of_none hsplit (utf8Length before)
          rw [place] at hnone ⊢
          simp only [Reading.leaf, hnone, hstop, slice_run hsource]
      | some parts =>
          obtain ⟨front, op, back⟩ := parts
          obtain ⟨token, htokens, hfound⟩ := exists_findSome?_place hsplit (utf8Length before)
          have htoken : token ∈ head :: rest := by simp [htokens]
          have hback : ∀ other ∈ back, ∀ c ∈ other.gap, isSpace c = true := by
            intro other hother
            exact hgaps other (by simp [htokens, hother])
          have hfield := trim_slice_front hsource htokens (hgaps token htoken)
          have hvalue := slice_back hsource htokens
          rw [place] at hfound ⊢
          simp only [Reading.leaf, hfound, hstop, hfield, hvalue, trim_gappedText hback]

/-! ## Whole filters -/

theorem leaf_of_part {source : List Char} {part : List Placed}
    (h : part <:+: place 0 (tokens source)) :
    Reading.leaf source part = segment (part.map Placed.token) := by
  obtain ⟨front, back, hpart⟩ := h
  obtain ⟨trailing, hsource, -⟩ := exists_eq_gappedText source
  obtain ⟨upTo, after, htokens, hupTo, -⟩ := exists_of_place_eq_append hpart.symm
  obtain ⟨before, run, hrun, -, hplaced⟩ := exists_of_place_eq_append hupTo.symm
  rw [hplaced, map_token_place, Nat.zero_add]
  refine leaf_place (gappedText before) (gappedText after ++ trailing) ?_ ?_
  · rw [hrun] at htokens
    rw [htokens] at hsource
    simpa [List.append_assoc] using hsource
  · intro token htoken c hc
    exact isSpace_of_mem_gap (by rw [htokens, hrun]; simp [htoken]) hc

theorem readOrs_tokens (source : List Char) :
    (readOrs (tokens source)).1 = Reading.tree source :=
  calc (readOrs (tokens source)).1
      = Reading.ors Token.kind segment (tokens source) := (readOrs_eq _).1
    _ = Reading.ors Token.kind segment ((place 0 (tokens source)).map Placed.token) := by
        rw [map_token_place]
    _ = Reading.tree source := Reading.ors_map fun _ hpart => (leaf_of_part hpart).symm

/-- A filter that is not blank is read to its last token, and its tree is the one that the
places of the tokens give; a blank filter matches every record. -/
theorem tree_text_eq_reading (text : String) :
    (Source.text text).tree =
      (if text.toList.all Text.isBlank then .matchAll else Reading.tree text.toList) ∧
    (readOrs (tokens text.toList)).2.1 = [] := by
  refine ⟨?_, (readOrs_eq _).2⟩
  rw [Source.tree, parse, readOrs_tokens]

example : Reading.tree "not not a = 1 nor not".toList =
    .nor [.not (.not (.compare "a" .eq (.int32 1))), .not (.unrecognized "")] := by cbv

end DocumentStore.Filter
