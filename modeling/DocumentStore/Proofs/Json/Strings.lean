import DocumentStore.Json.Reader
import DocumentStore.Proofs.Text.Hex

/-!
# JSON strings read back

A written string is read as its characters up to the closing quote.  Reading looks ahead for a
second escaped unit, so what a character is read as depends on the text behind it, and a written
text has to hold only such units as can be read.
-/

namespace DocumentStore.Json

/-- The ways in which a character stands in a written string. -/
inductive IsWritten : Char → List Char → Prop
  | plain {c : Char} (hquote : c ≠ '"') (hescape : c ≠ '\\') (hcontrol : ¬ c.toNat < 0x20) :
    IsWritten c [c]
  | named {c name : Char} (hunit : name ≠ 'u') (hname : unescape? name = some c) :
    IsWritten c ['\\', name]
  | unit {c e f g h : Char} (hunit : codeUnit? [e, f, g, h] = some c.toNat)
    (hcontrol : c.toNat < 0x20) : IsWritten c ['\\', 'u', e, f, g, h]

theorem isWritten_escapeChar (c : Char) : IsWritten c (escapeChar c) := by
  rw [escapeChar]
  split_ifs with hquote hescape hnewline hreturn htab hback hfeed hcontrol
  · subst hquote
    exact .named (by decide) rfl
  · subst hescape
    exact .named (by decide) rfl
  · subst hnewline
    exact .named (by decide) rfl
  · subst hreturn
    exact .named (by decide) rfl
  · subst htab
    exact .named (by decide) rfl
  · subst hback
    exact .named (by decide) rfl
  · subst hfeed
    exact .named (by decide) rfl
  · exact .unit (Text.Hex.decode?_encode (show c.toNat < 16 ^ 4 by omega)) hcontrol
  · exact .plain hquote hescape hcontrol

/-- An escaped unit at the front of the text has four digits. -/
def StartsReadable (rest : List Char) : Prop :=
  ∀ e f g h left, rest = '\\' :: 'u' :: e :: f :: g :: h :: left →
    (codeUnit? [e, f, g, h]).isSome

theorem joinSurrogates?_of_lt {high low : Nat} (h : high < 0xD800) :
    joinSurrogates? high low = none :=
  if_neg fun hpair => by omega

theorem ofUnit?_toNat {c : Char} (h : c.toNat < 0xD800) : ofUnit? c.toNat = some c := by
  rw [ofUnit?, if_neg (by omega), Char.ofNat_toNat]

/-- A unit that is no half of a pair is read alone, whatever stands behind it. -/
theorem readString?_unit {a b c d character : Char} {rest : List Char}
    (hunit : codeUnit? [a, b, c, d] = some character.toNat) (hbound : character.toNat < 0xD800)
    (hrest : StartsReadable rest) :
    readString? ('\\' :: 'u' :: a :: b :: c :: d :: rest) =
      (readString? rest).map fun (cs, left) => (character :: cs, left) := by
  -- only where another escaped unit follows does reading look for a pair
  by_cases hnext : ∃ e f g h left, rest = '\\' :: 'u' :: e :: f :: g :: h :: left
  · obtain ⟨e, f, g, h, left, rfl⟩ := hnext
    obtain ⟨low, hlow⟩ := Option.isSome_iff_exists.1 (hrest e f g h left rfl)
    rw [readString?.eq_3, hunit, hlow]
    simp only [joinSurrogates?_of_lt hbound, ofUnit?_toNat hbound]
  · rw [readString?.eq_4 _ _ _ _ _ fun e f g h left heq => hnext ⟨e, f, g, h, left, heq⟩, hunit,
      Option.bind_some, ofUnit?_toNat hbound]

theorem readString?_isWritten {c : Char} {cs rest : List Char} (hcs : IsWritten c cs)
    (hrest : StartsReadable rest) :
    readString? (cs ++ rest) =
      (readString? rest).map fun (cs, left) => (c :: cs, left) := by
  cases hcs with
  | plain hquote hescape hcontrol =>
      exact (readString?.eq_6 c rest hquote (fun _ _ _ _ _ _ _ _ _ h _ => hescape h)
        (fun _ _ _ _ _ h _ => hescape h) fun _ _ h _ => hescape h).trans (if_neg hcontrol)
  | @named name hunit hname =>
      refine (readString?.eq_5 name rest (fun _ _ _ _ _ _ _ _ _ h _ => hunit h)
        fun _ _ _ _ _ h _ => hunit h).trans ?_
      rw [hname]
  | unit hunit hcontrol =>
      rw [List.cons_append, List.cons_append, List.cons_append, List.cons_append, List.cons_append,
        List.cons_append, List.nil_append, readString?_unit hunit (by omega) hrest]

theorem startsReadable_isWritten {c : Char} {cs : List Char} (hcs : IsWritten c cs)
    (rest : List Char) : StartsReadable (cs ++ rest) := by
  intro e f g h left heq
  cases hcs with
  | plain _ hescape _ => exact absurd (List.cons.inj heq).1 hescape
  | named hunit _ => exact absurd (List.cons.inj (List.cons.inj heq).2).1 hunit
  | unit hunit _ =>
      simp only [List.cons_append, List.nil_append, List.cons.injEq, true_and] at heq
      obtain ⟨rfl, rfl, rfl, rfl, -⟩ := heq
      rw [hunit, Option.isSome_some]

theorem startsReadable_written (cs rest : List Char) :
    StartsReadable (cs.flatMap escapeChar ++ '"' :: rest) := by
  cases cs with
  | nil =>
      intro e f g h left heq
      exact absurd (List.cons.inj heq).1 (by decide)
  | cons c cs =>
      rw [List.flatMap_cons, List.append_assoc]
      exact startsReadable_isWritten (isWritten_escapeChar c) _

theorem readString?_written (cs rest : List Char) :
    readString? (cs.flatMap escapeChar ++ '"' :: rest) = some (cs, rest) := by
  induction cs with
  | nil => exact readString?.eq_2 rest
  | cons c cs ih =>
      rw [List.flatMap_cons, List.append_assoc,
        readString?_isWritten (isWritten_escapeChar c) (startsReadable_written cs rest), ih,
        Option.map_some]

end DocumentStore.Json
