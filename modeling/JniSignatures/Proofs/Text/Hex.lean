import Mathlib
import JniSignatures.Text.Character
/-!
# Hexadecimal digits read back

The digits of a number denote it again, whatever zeros stand in front of them (`hexNumber_hex`). A number of
16 bits has four digits (`hex_four`); a greater one has one digit more for each further factor of sixteen,
behind those of its front part (`hex_concat`).
-/

namespace JniSignatures.Text

theorem hexValue?_digitChar : ∀ d < 16, hexValue? d.digitChar = some d := by decide

/-- The four digits of a unit of 16 bits. -/
theorem hex_four {n : Nat} (h : n < 0x10000) : hex 4 n =
    [(n / 4096).digitChar, (n / 256 % 16).digitChar, (n / 16 % 16).digitChar, (n % 16).digitChar] := by
  have zero : Nat.digitChar 0 = '0' := rfl
  -- One case for each number of digits that are no padding.
  rcases (show n < 16 ∨ (16 ≤ n ∧ n < 256) ∨ (256 ≤ n ∧ n < 4096) ∨ 4096 ≤ n by omega)
    with h1 | ⟨h1, h2⟩ | ⟨h1, h2⟩ | h1
  · rw [hex, Nat.toDigits_of_lt_base h1, show n / 4096 = 0 by omega, show n / 256 % 16 = 0 by omega,
      show n / 16 % 16 = 0 by omega, show n % 16 = n by omega, zero]
    rfl
  · rw [hex, Nat.toDigits_of_base_le (by decide) h1, Nat.toDigits_of_lt_base (by omega),
      show n / 4096 = 0 by omega, show n / 256 % 16 = 0 by omega, show n / 16 % 16 = n / 16 by omega, zero]
    rfl
  · rw [hex, Nat.toDigits_of_base_le (by decide) (by omega), Nat.toDigits_of_base_le (by decide) (by omega),
      Nat.toDigits_of_lt_base (by omega), show n / 4096 = 0 by omega, zero,
      show n / 16 / 16 = n / 256 % 16 by omega]
    rfl
  · rw [hex, Nat.toDigits_of_base_le (by decide) (by omega), Nat.toDigits_of_base_le (by decide) (by omega),
      Nat.toDigits_of_base_le (by decide) (by omega), Nat.toDigits_of_lt_base (by omega),
      show n / 16 / 16 / 16 = n / 4096 by omega, show n / 16 / 16 % 16 = n / 256 % 16 by omega]
    rfl

theorem length_hex_four {n : Nat} (h : n < 0x10000) : (hex 4 n).length = 4 := by
  rw [hex_four h]
  rfl

/-- From five digits on there is no padding, and the last digit can be split off. -/
theorem hex_concat {n : Nat} (h : 0x10000 ≤ n) : hex 4 n = hex 4 (n / 16) ++ [(n % 16).digitChar] := by
  have hlen : ∀ m, 0x1000 ≤ m → 4 ≤ (Nat.toDigits 16 m).length := by
    intro m hm
    rw [Nat.toDigits_of_base_le (by decide) (by omega), Nat.toDigits_of_base_le (by decide) (by omega),
      Nat.toDigits_of_base_le (by decide) (by omega)]
    simp only [List.length_append, List.length_singleton]
    have : 0 < (Nat.toDigits 16 (m / 16 / 16 / 16)).length := Nat.length_toDigits_pos
    omega
  have unpadded : ∀ m, 0x1000 ≤ m → hex 4 m = Nat.toDigits 16 m := by
    intro m hm
    simp [hex, List.leftpad, Nat.sub_eq_zero_of_le (hlen m hm)]
  rw [unpadded n (by omega), unpadded (n / 16) (by omega), Nat.toDigits_of_base_le (by decide) (by omega)]

/-- The number that hexadecimal digits denote. -/
def hexNumber (digits : List Char) : Nat :=
  digits.foldl (fun n c => n * 16 + (hexValue? c).getD 0) 0

theorem hexNumber_concat (digits : List Char) {d : Nat} (h : d < 16) :
    hexNumber (digits ++ [d.digitChar]) = hexNumber digits * 16 + d := by
  simp [hexNumber, hexValue?_digitChar d h]

theorem hexNumber_toDigits (n : Nat) : hexNumber (Nat.toDigits 16 n) = n := by
  induction n using Nat.strong_induction_on with
  | _ n ih =>
    by_cases h : n < 16
    · rw [Nat.toDigits_of_lt_base h]
      simp [hexNumber, hexValue?_digitChar n h]
    · rw [Nat.toDigits_of_base_le (by decide) (by omega), hexNumber_concat _ (by omega), ih (n / 16) (by omega)]
      omega

/-- The digits of a number denote it, with any number of zeros in front. -/
theorem hexNumber_hex (width n : Nat) : hexNumber (hex width n) = n := by
  have hzeros : ∀ k, (List.replicate k '0').foldl (fun n c => n * 16 + (hexValue? c).getD 0) 0 = 0 := by
    intro k
    induction k with
    | zero => rfl
    | succ k ih =>
      rw [List.replicate_succ', List.foldl_append, ih]
      rfl
  rw [hex, List.leftpad, hexNumber, List.foldl_append, hzeros]
  exact hexNumber_toDigits n

theorem exists_digit_of_mem_toDigits (n : Nat) {c : Char} (h : c ∈ Nat.toDigits 16 n) :
    ∃ d < 16, c = d.digitChar := by
  induction n using Nat.strong_induction_on with
  | _ n ih =>
    by_cases hn : n < 16
    · rw [Nat.toDigits_of_lt_base hn] at h
      exact ⟨n, hn, List.mem_singleton.1 h⟩
    · rw [Nat.toDigits_of_base_le (by decide) (by omega)] at h
      rcases List.mem_append.1 h with hfront | hlast
      · exact ih (n / 16) (by omega) hfront
      · exact ⟨n % 16, by omega, List.mem_singleton.1 hlast⟩

/-- Digits are all there is in the text of a number. -/
theorem exists_digit_of_mem_hex {width n : Nat} {c : Char} (h : c ∈ hex width n) : ∃ d < 16, c = d.digitChar := by
  rw [hex, List.leftpad] at h
  rcases List.mem_append.1 h with hzero | hdigit
  · exact ⟨0, by decide, List.eq_of_mem_replicate hzero⟩
  · exact exists_digit_of_mem_toDigits n hdigit

end JniSignatures.Text
