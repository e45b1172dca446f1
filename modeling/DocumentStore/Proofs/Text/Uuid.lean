import DocumentStore.Proofs.Text.Hex
import DocumentStore.Proofs.Text.Pieces
import DocumentStore.Text.Uuid

/-!
# Forms of universally unique identifiers

A text is read as sixteen bytes just when it writes their digits plainly or in five groups, and the
groups may stand in braces or behind a name.  The digits are read in either case.
-/

namespace DocumentStore.Text.Uuid

/-- Digits in five groups between hyphens. -/
inductive Grouping : List Char → List Char → Prop
  | intro {a b c d e : List Char} (hlengths : [a, b, c, d, e].map List.length = [8, 4, 4, 4, 12])
    (hsolid : ∀ group ∈ [a, b, c, d, e], '-' ∉ group) :
    Grouping (List.intercalate ['-'] [a, b, c, d, e]) (a ++ b ++ c ++ d ++ e)

theorem ungroup?_eq_some_iff {cs digits : List Char} :
    ungroup? cs = some digits ↔ Grouping cs digits := by
  constructor
  · intro h
    rw [ungroup?] at h
    split at h
    · next a b c d e heq =>
      split at h
      · next hlengths =>
        cases h
        have hsolid : ∀ group ∈ [a, b, c, d, e], '-' ∉ group := fun group hgroup hc => by
          rw [← heq] at hgroup
          simpa using (of_mem_splitWhere hgroup hc).2
        rw [← intercalate_splitOn '-' cs, heq]
        exact .intro hlengths hsolid
      · cases h
    · cases h
  · rintro ⟨hlengths, hsolid⟩
    rw [ungroup?, splitOn_intercalate (List.cons_ne_nil _ _) hsolid]
    exact if_pos hlengths

/-- The first group is not empty, and with the hyphens the text is longer than its digits. -/
theorem Grouping.exists_cons {cs digits : List Char} (h : Grouping cs digits) :
    ∃ c rest, cs = c :: rest ∧ c ∈ digits ∧ (c :: rest).length ≠ 32 := by
  obtain ⟨hlengths, -⟩ := h
  rename_i a b c d e
  simp only [List.map_cons, List.map_nil, List.cons.injEq, and_true] at hlengths
  obtain ⟨ha, hb, hc, hd, he⟩ := hlengths
  obtain ⟨first, a, rfl⟩ := List.exists_cons_of_ne_nil (List.ne_nil_of_length_eq_add_one ha)
  refine ⟨first, a ++ '-' :: (b ++ '-' :: (c ++ '-' :: (d ++ '-' :: e))), ?_, ?_, ?_⟩
  · simp [List.intercalate, List.intersperse]
  · simp
  · simp at ha ⊢
    omega

/-- The forms of a text, with the digits in it. -/
inductive Spelling : List Char → List Char → Prop
  | plain {digits : List Char} (hlength : digits.length = 32) : Spelling digits digits
  | grouped {cs digits : List Char} (h : Grouping cs digits) : Spelling cs digits
  | braced {cs digits : List Char} (h : Grouping cs digits) :
    Spelling ('\x7b' :: (cs ++ ['\x7d'])) digits
  | named {cs digits : List Char} (h : Grouping cs digits) :
    Spelling ("urn:uuid:".toList ++ cs) digits

theorem spelling_of_digits? {cs digits : List Char} (h : digits? cs = some digits) :
    Spelling cs digits := by
  rw [digits?.eq_def] at h
  split at h
  · next rest =>
    obtain ⟨inner, hinner, hgroups⟩ := Option.bind_eq_some_iff.1 h
    rw [dropEnd?_eq_some_iff.1 hinner]
    exact .braced (ungroup?_eq_some_iff.1 hgroups)
  · exact .named (ungroup?_eq_some_iff.1 h)
  · split at h
    · next hlength =>
      cases h
      exact .plain hlength
    · exact .grouped (ungroup?_eq_some_iff.1 h)

theorem digits?_of_isSome {c : Char} (h : (Hex.digit? c).isSome = true) (cs : List Char) :
    digits? (c :: cs) = if (c :: cs).length = 32 then some (c :: cs) else ungroup? (c :: cs) := by
  refine digits?.eq_3 _ ?_ ?_
  · rintro rest heq
    cases (List.cons.inj heq).1 ▸ h
  · rintro rest heq
    cases (List.cons.inj heq).1 ▸ h

/-- A text in lower case is read just when its digits, in one of the forms, are those of bytes. -/
theorem bytes?_eq_some_iff {cs : List Char} {bytes : List UInt8} :
    bytes? cs = some bytes ↔
      ∃ digits, Spelling (lower cs) digits ∧ Hex.decodeBytes? digits = some bytes := by
  rw [bytes?, Option.bind_eq_some_iff]
  refine exists_congr fun digits => and_congr_left fun hbytes => ⟨spelling_of_digits?, fun h => ?_⟩
  -- a hexadecimal digit starts neither a brace nor the name
  have hhex := Hex.isSome_digit?_of_decodeBytes? hbytes
  generalize lower cs = text at h
  cases h with
  | plain hlength =>
      obtain ⟨c, rest, rfl⟩ := List.exists_cons_of_ne_nil (List.ne_nil_of_length_eq_add_one hlength)
      rw [digits?_of_isSome (hhex c List.mem_cons_self), if_pos hlength]
  | grouped h =>
      obtain ⟨c, rest, rfl, hc, hlength⟩ := h.exists_cons
      rw [digits?_of_isSome (hhex c hc), if_neg hlength, ungroup?_eq_some_iff.2 h]
  | braced h =>
      rw [digits?, dropEnd?_eq_some_iff.2 rfl, Option.bind_some, ungroup?_eq_some_iff.2 h]
  | named h => exact ungroup?_eq_some_iff.2 h

end DocumentStore.Text.Uuid
