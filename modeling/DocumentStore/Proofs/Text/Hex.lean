import DocumentStore.Text.Blank
import DocumentStore.Text.Hex
import Mathlib.Algebra.Group.Nat.Defs
import Mathlib.Data.UInt

/-!
# Hexadecimal digits read back

A number is read from the digits that are written of it, and so are bytes.
-/

namespace DocumentStore.Text.Hex

theorem digit?_of_isBlank {c : Char} (h : Text.isBlank c = true) :
    digit? c = none := by
  have hrange {first last : Char} (hle : first ≤ c ∧ c ≤ last) :
      first.toNat ≤ c.toNat ∧ c.toNat ≤ last.toNat :=
    ⟨UInt32.le_iff_toNat_le.1 hle.1, UInt32.le_iff_toNat_le.1 hle.2⟩
  have hdigit : ¬ ('0' ≤ c ∧ c ≤ '9') := fun hle => by
    have hcode : 48 ≤ c.toNat ∧ c.toNat ≤ 57 := hrange hle
    simp [Text.isBlank] at h
    omega
  have hlower : ¬ ('a' ≤ c ∧ c ≤ 'f') := fun hle => by
    have hcode : 97 ≤ c.toNat ∧ c.toNat ≤ 102 := hrange hle
    simp [Text.isBlank] at h
    omega
  have hupper : ¬ ('A' ≤ c ∧ c ≤ 'F') := fun hle => by
    have hcode : 65 ≤ c.toNat ∧ c.toNat ≤ 70 := hrange hle
    simp [Text.isBlank] at h
    omega
  rw [digit?, if_neg hdigit, if_neg hlower, if_neg hupper]

theorem digit?_digitChar : ∀ {n : Nat}, n < 16 →
    digit? (Nat.digitChar n) = some n := by
  decide

/-- The digits of a fixed width are read as what they leave of the number, behind those read
before them. -/
theorem foldlM_encode (width n start : Nat) :
    (encode width n).foldlM (fun n c => (digit? c).map (16 * n + ·)) start =
      some (16 ^ width * start + n % 16 ^ width) := by
  induction width generalizing n with
  | zero => simp [encode, Nat.mod_one]
  | succ width ih =>
      have hsplit : n % 16 ^ (width + 1) = n % 16 + 16 * (n / 16 % 16 ^ width) := by
        rw [Nat.pow_succ', Nat.mod_mul]
      rw [encode, List.foldlM_append, ih, Option.bind_eq_bind, Option.bind_some, List.foldlM_cons,
        digit?_digitChar (Nat.mod_lt n (by decide)), hsplit, Nat.pow_succ',
        Nat.mul_assoc 16 (16 ^ width) start]
      simp only [Option.map_some, List.foldlM_nil, Option.bind_eq_bind, Option.bind_some,
        Option.pure_def, Option.some_inj]
      omega

theorem length_encode (width n : Nat) : (encode width n).length = width := by
  induction width generalizing n with
  | zero => rfl
  | succ width ih => rw [encode, List.length_append, ih, List.length_singleton]

theorem isSome_digit?_of_mem_encode {width n : Nat} {c : Char}
    (h : c ∈ encode width n) : (digit? c).isSome = true := by
  induction width generalizing n with
  | zero => cases h
  | succ width ih =>
      rw [encode] at h
      rcases List.mem_append.1 h with hfront | hlast
      · exact ih hfront
      · rw [List.mem_singleton.1 hlast, digit?_digitChar (Nat.mod_lt n (by decide))]
        rfl

theorem decode?_encode {width n : Nat} (h : n < 16 ^ width) :
    decode? (encode width n) = some n := by
  rw [decode?, foldlM_encode, Nat.mul_zero, Nat.zero_add, Nat.mod_eq_of_lt h]

theorem decodeBytes?_encodeBytes (bytes : List UInt8) :
    decodeBytes? (encodeBytes bytes) = some bytes := by
  induction bytes with
  | nil => rfl
  | cons byte bytes ih =>
      have hbyte : decode? (encode 2 byte.toNat) = some byte.toNat := decode?_encode byte.toNat_lt
      rw [encode, encode, encode, List.nil_append, List.singleton_append] at hbyte
      change decodeBytes? (Nat.digitChar (byte.toNat / 16 % 16) :: Nat.digitChar (byte.toNat % 16)
        :: encodeBytes bytes) = _
      rw [decodeBytes?, hbyte, ih]
      simp only [Option.bind_eq_bind, Option.bind_some, UInt8.ofNat_toNat, Option.pure_def]

theorem isSome_digit?_of_decodeBytes? {cs : List Char} {bytes : List UInt8}
    (h : decodeBytes? cs = some bytes) : ∀ c ∈ cs, (digit? c).isSome = true := by
  fun_induction decodeBytes? cs generalizing bytes with
  | case1 => exact fun _ hc => nomatch hc
  | case2 => cases h
  | case3 high low rest ih =>
      obtain ⟨byte, hbyte, h⟩ := Option.bind_eq_some_iff.1 h
      obtain ⟨bytes, hbytes, -⟩ := Option.bind_eq_some_iff.1 h
      rw [decode?, List.foldlM_cons] at hbyte
      obtain ⟨first, hhigh, hbyte⟩ := Option.bind_eq_some_iff.1 hbyte
      rw [List.foldlM_cons] at hbyte
      obtain ⟨both, hlow, -⟩ := Option.bind_eq_some_iff.1 hbyte
      refine List.forall_mem_cons.2 ⟨?_, List.forall_mem_cons.2 ⟨?_, ih hbytes⟩⟩
      · exact (Option.isSome_map ..).symm.trans (Option.isSome_of_eq_some hhigh)
      · exact (Option.isSome_map ..).symm.trans (Option.isSome_of_eq_some hlow)

end DocumentStore.Text.Hex
