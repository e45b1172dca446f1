import DocumentStore.Proofs.Filter.Spans
import DocumentStore.Proofs.Literal.Inference

/-!
# Leaves out of slices

A leaf is read by the places of its tokens: the field and the value are slices of the source, a
list is cut into slices of the value, and a quoted literal is a slice of its token.  Each of these
slices exists, and what is read is the leaf of the tokens.
-/

namespace DocumentStore.Filter

/-! ## Quoted literals -/

def unquoted? (token : List Char) : Option (Option (List Char)) :=
  if 2 ≤ (utf8 token).length then do
    let first ← (utf8 token)[0]?
    if isQuoteByte first then
      let last ← (utf8 token)[(utf8 token).length - 1]?
      if last = first then
        let inner ← slice? token 1 ((utf8 token).length - 1)
        return some inner
      else return none
    else return none
  else some none

/-- The last byte of several is above 128. -/
theorem getLast?_utf8EncodeChar {byte : UInt8} (hbyte : byte < 0x80) (c : Char) :
    (String.utf8EncodeChar c).getLast? = some byte ↔ c.toNat = byte.toNat := by
  have hsmall : byte.toNat < 128 := hbyte
  have hval : c.val.toNat = c.toNat := rfl
  rw [String.utf8EncodeChar]
  split_ifs <;>
    simp only [List.getLast?_cons_cons, List.getLast?_singleton, Option.some_inj,
      ← UInt8.toNat_inj, UInt8.toNat_ofNat'] <;>
    omega

theorem last_utf8_concat {byte : UInt8} (hbyte : byte < 0x80) (front : List Char) (c : Char) :
    (utf8 (front ++ [c]))[(utf8 (front ++ [c])).length - 1]? = some byte ↔
      c.toNat = byte.toNat := by
  rw [← List.getLast?_eq_getElem?, utf8_append, utf8, utf8, List.flatMap_singleton,
    List.getLast?_append_of_ne_nil _ String.utf8EncodeChar_ne_nil, getLast?_utf8EncodeChar hbyte]

theorem unquoted?_concat {quote : Char} (hquote : Literal.isQuote quote = true)
    (inner : List Char) (last : Char) :
    unquoted? (quote :: inner ++ [last]) = some (if last = quote then some inner else none) := by
  have hsize : quote.utf8Size = 1 := utf8Size_of_isQuote hquote
  have hlength : 2 ≤ (utf8 (quote :: inner ++ [last])).length := by
    have hpos := last.utf8Size_pos
    rw [length_utf8, utf8Length_append, utf8Length, utf8Length, hsize]
    omega
  have hfirst : (utf8 (quote :: inner ++ [last]))[0]? = some (leadByte quote) :=
    getElem?_utf8 (List.nil_append _).symm
  have hascii : leadByte quote < 0x80 ∧ quote.toNat = (leadByte quote).toNat := by
    rcases Literal.eq_of_isQuote hquote with rfl | rfl <;> decide
  obtain ⟨byte, hbyte⟩ : ∃ byte, (utf8 (quote :: inner ++ [last]))[
      (utf8 (quote :: inner ++ [last])).length - 1]? = some byte :=
    ⟨_, List.getElem?_eq_getElem (by omega)⟩
  have hlast : byte = leadByte quote ↔ last = quote := by
    rw [← Option.some_inj, ← hbyte, last_utf8_concat hascii.1, ← hascii.2, Char.toNat_inj]
  rw [unquoted?, if_pos hlength, hfirst, Option.bind_eq_bind, Option.bind_some,
    isQuoteByte_leadByte, if_pos hquote, hbyte, Option.bind_eq_bind, Option.bind_some]
  by_cases hclosed : last = quote
  · have hslice : slice? (quote :: inner ++ [last]) 1
        ((utf8 (quote :: inner ++ [last])).length - 1) = some inner := by
      have hbetween : quote :: inner ++ [last] = [quote] ++ inner ++ [last] := rfl
      refine slice?_eq hbetween ?_ ?_
      · rw [utf8Length, hsize]
        rfl
      · rw [length_utf8, utf8Length_append, hclosed, List.singleton_append]
        simp only [utf8Length, hsize]
        omega
    rw [if_pos (hlast.2 hclosed), if_pos hclosed, hslice]
    rfl
  · rw [if_neg fun h => hclosed (hlast.1 h), if_neg hclosed]
    rfl

theorem unquoted?_eq (token : List Char) :
    unquoted? token = some (Literal.quotedText? token) := by
  cases token with
  | nil => rfl
  | cons c rest =>
      rw [Literal.quotedText?]
      by_cases hquote : Literal.isQuote c = true
      · rw [if_pos hquote]
        rcases List.eq_nil_or_concat rest with rfl | ⟨inner, last, rfl⟩
        · -- A quote alone is a single byte.
          have hlength : (utf8 [c]).length = 1 := by
            rw [length_utf8, utf8Length, utf8Size_of_isQuote hquote]
            rfl
          rw [unquoted?, if_neg (by omega)]
          rfl
        · rw [List.concat_eq_append, ← List.cons_append, unquoted?_concat hquote]
          simp [Text.dropEnd?]
      · have hfirst : (utf8 (c :: rest))[0]? = some (leadByte c) :=
          getElem?_utf8 (List.nil_append (c :: rest)).symm
        rw [if_neg hquote, unquoted?, hfirst, Option.bind_eq_bind, Option.bind_some,
          isQuoteByte_leadByte, if_neg hquote]
        split <;> rfl

def literal? (token : List Char) : Option Literal := do
  match ← unquoted? token with
  | some inner => return .string (String.ofList inner)
  | none => return Literal.ofToken token

theorem literal?_eq (token : List Char) : literal? token = some (Literal.ofToken token) := by
  rw [literal?, unquoted?_eq, Option.bind_eq_bind, Option.bind_some]
  cases hquoted : Literal.quotedText? token with
  | none => rfl
  | some inner => rw [Literal.ofToken, hquoted]; rfl

/-! ## Lists -/

/-- Whether a quote opens at a place of an element that starts at another. -/
def opensQuote? (value : List Char) (start index : Nat) (c : Char) : Option Bool :=
  if Literal.isQuote c then do
    let front ← slice? value start index
    if front.all Text.isBlank then
      let behind ← behind? value (index + c.utf8Size)
      return behind.contains c
    else return false
  else some false

/-- The elements from the start of one on, with the characters that are still to come. -/
def cut? (value : List Char) (quote : Option Char) (start index : Nat) :
    List Char → Option (List (List Char))
  | [] => do
    let element ← behind? value start
    return [element]
  | c :: rest =>
    match quote with
    | some q => cut? value (if c = q then none else some q) start (index + c.utf8Size) rest
    | none => do
      if ← opensQuote? value start index c then
        cut? value (some c) start (index + c.utf8Size) rest
      else if c = ',' then
        let element ← slice? value start index
        let elements ← cut? value none (index + c.utf8Size) (index + c.utf8Size) rest
        return element :: elements
      else cut? value none start (index + c.utf8Size) rest

section

variable {value before element rest : List Char} {c : Char}

theorem opensQuote?_eq (hvalue : value = before ++ element ++ c :: rest) :
    opensQuote? value (utf8Length before) (utf8Length (before ++ element)) c =
      some (Literal.isQuote c && element.reverse.all Text.isBlank && rest.contains c) := by
  have hnext : value = (before ++ element ++ [c]) ++ rest := by
    rw [hvalue, List.append_cons]
  rw [opensQuote?, slice?_eq hvalue rfl rfl, ← utf8Length_concat, behind?_eq hnext rfl,
    List.all_reverse, Option.bind_eq_bind, Option.bind_some]
  cases Literal.isQuote c <;> cases element.all Text.isBlank <;> rfl

theorem cut?_eq {quote : Option Char} (hvalue : value = before ++ element ++ rest) :
    cut? value quote (utf8Length before) (utf8Length (before ++ element)) rest =
      some (cutElements quote element.reverse rest) := by
  induction rest generalizing before element quote with
  | nil =>
      have hrest : value = before ++ element := by rw [hvalue, List.append_nil]
      rw [cut?, behind?_eq hrest rfl, cutElements, List.reverse_reverse]
      rfl
  | cons c rest ih =>
      have hplace : utf8Length (before ++ element) + c.utf8Size =
          utf8Length (before ++ (element ++ [c])) := by
        rw [← utf8Length_concat, List.append_assoc]
      have hinside : value = before ++ (element ++ [c]) ++ rest := by
        rw [hvalue, List.append_cons, List.append_assoc before]
      have hreverse : (element ++ [c]).reverse = c :: element.reverse := List.reverse_concat ..
      cases quote with
      | some q => rw [cut?, cutElements, hplace, ih hinside, hreverse]
      | none =>
          rw [cut?, cutElements, opensQuote?_eq hvalue, hplace, Option.bind_eq_bind,
            Option.bind_some]
          split
          · rw [ih hinside, hreverse]
          · split
            · have hbehind : value = before ++ (element ++ [c]) ++ [] ++ rest := by
                rw [hinside, List.append_nil]
              have hempty := @ih (before ++ (element ++ [c])) [] none hbehind
              rw [List.append_nil] at hempty
              rw [slice?_eq hvalue rfl rfl, Option.bind_eq_bind, Option.bind_some, hempty,
                List.reverse_reverse]
              rfl
            · rw [ih hinside, hreverse]

end

def elementValues? (value : List Char) : Option (List Value) := do
  let inner := ((enclosed? '(' ')' value).or (enclosed? '[' ']' value)).getD value
  let parts ← cut? inner none 0 0 inner
  ((parts.map Text.trim).filter (!·.isEmpty)).mapM fun element =>
    (literal? element).map Literal.value

theorem elementValues?_eq (value : List Char) :
    elementValues? value = some (elementValues value) := by
  have hliteral : (fun element => (literal? element).map Literal.value) =
      fun element => pure (Literal.ofToken element).value := by
    funext element
    rw [literal?_eq]
    rfl
  have hcut {inner : List Char} :
      cut? inner none 0 0 inner = some (cutElements none [] inner) :=
    @cut?_eq inner [] [] inner none rfl
  rw [elementValues?, hliteral, hcut, Option.bind_eq_bind, Option.bind_some, List.mapM_pure]
  rfl

/-! ## Leaves -/

def textTest? (field value : List Char) : Option Predicate := do
  let literal ← literal? value
  let (wildcards, inner) := cutWildcards literal.text.toList
  return .pattern (String.ofList field) wildcards (String.ofList (wildcards.anchored inner))

def condition? (field : List Char) (op : Operator) (value : List Char) : Option Predicate :=
  match op with
  | .like => textTest? field value
  | .comparison op =>
    if op.isMembership then do
      let values ← elementValues? value
      return .compare (String.ofList field) op (.array values)
    else do
      let literal ← literal? value
      return .compare (String.ofList field) op literal.value

theorem condition?_eq (field : List Char) (op : Operator) (value : List Char) :
    condition? field op value = some (condition field op value) := by
  cases op with
  | like => rw [condition?, textTest?, literal?_eq]; rfl
  | comparison op =>
      rw [condition?, condition, literal?_eq, elementValues?_eq]
      split <;> rfl

def Mark.operator? (mark : Mark) : Option (Operator × Mark) :=
  match mark.kind with
  | .operator op => some (op, mark)
  | _ => none

def leaf? (source : List Char) : List Mark → Option Predicate
  | [] => some (.unrecognized "")
  | head :: rest =>
    let stop := (rest.getLastD head).last
    match (head :: rest).findSome? Mark.operator? with
    | none => do
      let whole ← slice? source head.first stop
      return .unrecognized (String.ofList (Text.trim whole))
    | some (op, mark) => do
      let field ← slice? source head.first mark.first
      let value ← slice? source mark.last stop
      condition? (Text.trim field) op (Text.trim value)

/-! ## Leaves of runs of tokens -/

theorem Placed.operator?_mark :
    Mark.operator? ∘ Placed.mark =
      Option.map (fun found => (found.1, found.2.mark)) ∘ Placed.operator? := by
  funext placed
  have hkind : placed.mark.kind = placed.kind := rfl
  rw [Function.comp_apply, Function.comp_apply, Mark.operator?, Placed.operator?, hkind]
  cases placed.kind <;> rfl

theorem Placed.eq_of_operator? {placed other : Placed} {op : Operator}
    (h : placed.operator? = some (op, other)) : other = placed := by
  rw [operator?] at h
  split at h
  · exact (Prod.mk.inj (Option.some.inj h)).2.symm
  · cases h

section

variable {source : List Char} {head : Placed} {rest : List Placed}

theorem last_le_getLastD
    (hordered : (head :: rest).Pairwise fun placed next => placed.last ≤ next.first)
    (hlt : ∀ placed ∈ head :: rest, placed.first < placed.last) :
    ∀ placed ∈ head :: rest, placed.last ≤ (rest.getLastD head).last := by
  induction rest generalizing head with
  | nil =>
      intro placed hplaced
      rw [List.mem_singleton.1 hplaced]
      exact Nat.le_refl _
  | cons next rest ih =>
      rw [List.pairwise_cons] at hordered
      rw [List.forall_mem_cons] at hlt ⊢
      rw [List.getLastD_cons]
      have hrest := ih hordered.2 hlt.2
      refine ⟨?_, hrest⟩
      calc head.last
          ≤ next.first := hordered.1 next List.mem_cons_self
        _ ≤ next.last := Nat.le_of_lt (hlt.2 next List.mem_cons_self)
        _ ≤ (rest.getLastD next).last := hrest next List.mem_cons_self

/-- The slices of a leaf exist: they start no later than they end, on boundaries. -/
theorem leaf?_eq {part : List Placed} (h : part <:+: place 0 (tokens source)) :
    leaf? source (part.map Placed.mark) = some (segment (part.map Placed.token)) := by
  rw [← leaf_of_part h]
  cases part with
  | nil => rfl
  | cons head rest =>
      have hordered : (head :: rest).Pairwise fun placed next => placed.last ≤ next.first :=
        (pairwise_place 0 (tokens source)).sublist h.sublist
      have hboundaries placed (hplaced : placed ∈ head :: rest) :=
        boundaries_of_mem_place (h.subset hplaced)
      have hstop := last_le_getLastD hordered fun placed hplaced => (hboundaries placed hplaced).1
      obtain ⟨hhead, hfirst, -⟩ := hboundaries head List.mem_cons_self
      obtain ⟨-, -, hend⟩ := hboundaries _ List.getLastD_mem_cons
      have hlast : ((rest.map Placed.mark).getLastD head.mark).last = (rest.getLastD head).last :=
        congrArg Mark.last List.getLastD_map
      rw [List.map_cons, leaf?, Reading.leaf, ← List.map_cons, List.findSome?_map,
        Placed.operator?_mark, ← List.map_findSome?, hlast]
      cases hfound : (head :: rest).findSome? Placed.operator? with
      | none =>
          have hle : head.first ≤ (rest.getLastD head).last :=
            Nat.le_trans (Nat.le_of_lt hhead) (hstop head List.mem_cons_self)
          show (slice? source head.first (rest.getLastD head).last).bind _ = _
          rw [slice?_of_boundaries hle hfirst hend]
          rfl
      | some found =>
          obtain ⟨op, placed⟩ := found
          obtain ⟨other, hother, hop⟩ := List.exists_of_findSome?_eq_some hfound
          obtain rfl := Placed.eq_of_operator? hop
          obtain ⟨-, hbefore, hbehind⟩ := hboundaries placed hother
          have hle : head.first ≤ placed.first := by
            rcases List.mem_cons.1 hother with rfl | hmem
            · exact Nat.le_refl _
            · exact Nat.le_trans (Nat.le_of_lt hhead) (List.rel_of_pairwise_cons hordered hmem)
          show (slice? source head.first placed.first).bind (fun field =>
            (slice? source placed.last (rest.getLastD head).last).bind fun value =>
              condition? (Text.trim field) op (Text.trim value)) = _
          rw [slice?_of_boundaries hle hfirst hbefore, Option.bind_some,
            slice?_of_boundaries (hstop placed hother) hbehind hend, Option.bind_some,
            condition?_eq]

end

end DocumentStore.Filter
