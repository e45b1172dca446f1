import DocumentStore.Text.Base64
import Mathlib.Data.UInt

/-!
# Base 64 text read back

Bytes are read from the letters that are written of them.
-/

namespace DocumentStore.Text.Base64

theorem ofNat_eq_of_mod {n : Nat} {byte : UInt8} (h : n % 256 = byte.toNat) :
    UInt8.ofNat n = byte := by
  rw [← UInt8.toNat_inj, UInt8.toNat_ofNat', h]

theorem sextet?_letter : ∀ {n : Nat}, n < 64 → sextet? (letter n) = some n := by
  decide

theorem letter_ne_pad : ∀ {n : Nat}, n < 64 → letter n ≠ '=' := by
  decide

theorem decode?_letters {i j k l : Nat} (hi : i < 64) (hj : j < 64) (hk : k < 64) (hl : l < 64)
    (rest : List Char) :
    decode? (letter i :: letter j :: letter k :: letter l :: rest) =
      (decode? rest).map fun bytes =>
        let n := ((i * 64 + j) * 64 + k) * 64 + l
        UInt8.ofNat (n / 65536) :: UInt8.ofNat (n / 256) :: UInt8.ofNat n :: bytes := by
  rw [decode?.eq_4 _ _ _ _ _ (fun h => absurd h (letter_ne_pad hk))
    (fun h => absurd h (letter_ne_pad hl)), sextet?_letter hi, sextet?_letter hj,
    sextet?_letter hk, sextet?_letter hl]
  cases decode? rest <;> rfl

theorem decode?_encode (bytes : List UInt8) : decode? (encode bytes) = some bytes := by
  fun_induction encode bytes with
  | case1 => rfl
  | case2 a n =>
      have ha := a.toNat_lt
      have hn : n / 64 * 64 + n % 64 = a.toNat * 16 := Nat.div_add_mod' n 64
      have hbyte : UInt8.ofNat (a.toNat * 16 / 16) = a := ofNat_eq_of_mod (by omega)
      rw [decode?.eq_2, sextet?_letter (by omega), sextet?_letter (by omega)]
      simp only [Option.bind_eq_bind, Option.bind_some, hn, Nat.mul_mod_left, ↓reduceIte, hbyte,
        Option.pure_def]
  | case3 a b n =>
      have ha := a.toNat_lt
      have hb := b.toNat_lt
      have hn : (n / 4096 * 64 + n / 64 % 64) * 64 + n % 64 = (a.toNat * 256 + b.toNat) * 4 := by
        omega
      have hfirst : UInt8.ofNat ((a.toNat * 256 + b.toNat) * 4 / 1024) = a :=
        ofNat_eq_of_mod (by omega)
      have hsecond : UInt8.ofNat ((a.toNat * 256 + b.toNat) * 4 / 4) = b :=
        ofNat_eq_of_mod (by omega)
      rw [decode?.eq_3 _ _ _ (letter_ne_pad (Nat.mod_lt n (by decide))),
        sextet?_letter (by omega), sextet?_letter (by omega), sextet?_letter (by omega)]
      simp only [Option.bind_eq_bind, Option.bind_some, hn, Nat.mul_mod_left, ↓reduceIte, hfirst,
        hsecond, Option.pure_def]
  | case4 a b c rest n ih =>
      have ha := a.toNat_lt
      have hb := b.toNat_lt
      have hc := c.toNat_lt
      have hn : ((n / 262144 * 64 + n / 4096 % 64) * 64 + n / 64 % 64) * 64 + n % 64 =
          (a.toNat * 256 + b.toNat) * 256 + c.toNat := by
        omega
      have hfirst : UInt8.ofNat (((a.toNat * 256 + b.toNat) * 256 + c.toNat) / 65536) = a :=
        ofNat_eq_of_mod (by omega)
      have hsecond : UInt8.ofNat (((a.toNat * 256 + b.toNat) * 256 + c.toNat) / 256) = b :=
        ofNat_eq_of_mod (by omega)
      have hthird : UInt8.ofNat ((a.toNat * 256 + b.toNat) * 256 + c.toNat) = c :=
        ofNat_eq_of_mod (by omega)
      rw [decode?_letters (by omega) (by omega) (by omega) (by omega), ih, hn]
      simp only [Option.map_some, hfirst, hsecond, hthird]

end DocumentStore.Text.Base64
