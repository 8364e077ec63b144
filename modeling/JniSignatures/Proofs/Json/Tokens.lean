import Mathlib
import JniSignatures.Proofs.Json.Strings
/-!
# Tokens read as they were written

Integers are read back digit by digit, up to the comma or the line end that follows every value in a
written document. Blanks are passed over, and after a token the reading goes on behind its text.
-/

namespace JniSignatures.Json

/-! ## Integers -/

/-- A value in a written document is followed by a comma or a line end. -/
def Ended (rest : List Char) : Prop :=
  ∃ c tail, rest = c :: tail ∧ (c = ',' ∨ c = '\n')

theorem isDigit_of_mem_toDigits {n : Nat} {c : Char} (h : c ∈ Nat.toDigits 10 n) : isDigit c := by
  have hd := Nat.isDigit_of_mem_toDigits (by decide) (by decide) h
  simp only [Char.isDigit, Bool.and_eq_true, decide_eq_true_eq] at hd
  simp only [isDigit, Bool.and_eq_true, decide_eq_true_eq]
  exact hd

/-- The digits of a number start with a digit, which is zero only for zero. -/
theorem toDigits_head (n : Nat) :
    ∃ d tail, d < 10 ∧ Nat.toDigits 10 n = d.digitChar :: tail ∧ (d = 0 → n = 0) := by
  -- By the number without its last digit.
  induction n using Nat.strong_induction_on with
  | _ n ih =>
    by_cases h : n < 10
    · exact ⟨n, [], h, Nat.toDigits_of_lt_base h, id⟩
    · obtain ⟨d, tail, hd, hn, hz⟩ := ih (n / 10) (by omega)
      refine ⟨d, tail ++ [(n % 10).digitChar], hd, ?_, fun h0 => ?_⟩
      · rw [Nat.toDigits_of_base_le (by decide) (by omega), hn]
        rfl
      · have := hz h0
        omega

theorem natOfDigits_toDigits (n : Nat) : natOfDigits (Nat.toDigits 10 n) = n := by
  have hfold : natOfDigits (Nat.toDigits 10 n) = Nat.ofDigitChars 10 (Nat.toDigits 10 n) 0 := by
    rw [natOfDigits, Nat.ofDigitChars_eq_foldl]
    refine congrArg (fun step => (Nat.toDigits 10 n).foldl step 0) (funext fun m => funext fun c => ?_)
    rw [Nat.mul_comm]
  rw [hfold, Nat.ofDigitChars_ten_toDigits]

theorem digitsOf_toDigits (n : Nat) {rest : List Char} (hr : Ended rest) :
    digitsOf (Nat.toDigits 10 n ++ rest) = Nat.toDigits 10 n := by
  obtain ⟨c, tail, rfl, hc⟩ := hr
  have hstop : isDigit c = false := by rcases hc with rfl | rfl <;> rfl
  rw [digitsOf, List.takeWhile_append_of_pos fun c hm => isDigit_of_mem_toDigits hm, List.takeWhile_cons, hstop]
  exact List.append_nil _

theorem wholePart_toDigits (n : Nat) {rest : List Char} (hr : Ended rest) :
    wholePart (Nat.toDigits 10 n ++ rest) = Nat.toDigits 10 n := by
  by_cases hn : n = 0
  · subst hn
    rfl
  · obtain ⟨d, tail, hd, htext, hz⟩ := toDigits_head n
    have hne : d.digitChar ≠ '0' := by
      have hall : ∀ d < 10, d ≠ 0 → d.digitChar ≠ '0' := by decide
      exact hall d hd fun h0 => hn (hz h0)
    rw [wholePart]
    · exact digitsOf_toDigits n hr
    · intro tail' h
      rw [htext] at h
      exact hne (List.cons.inj h).1

theorem readUnsigned_toDigits {n : Nat} (h : (Nat.toDigits 10 n).length ≤ maxIntDigits)
    {rest : List Char} (hr : Ended rest) (negative : Bool) : readUnsigned negative (Nat.toDigits 10 n ++ rest) =
      some (.int (if negative then -n else n), (Nat.toDigits 10 n).length) := by
  have hfraction : fractionPart rest = [] := by
    obtain ⟨c, tail, rfl, rfl | rfl⟩ := hr <;> rfl
  have hexponent : exponentPart rest = none := by
    obtain ⟨c, tail, rfl, rfl | rfl⟩ := hr <;> rfl
  obtain ⟨d, tail, -, htext, -⟩ := toDigits_head n
  have hwhole := wholePart_toDigits n hr
  rw [readUnsigned, hwhole]
  split
  · rename_i hnil
    rw [htext] at hnil
    cases hnil
  · simp only [List.drop_left, hfraction, if_true, List.drop_zero, hexponent, Option.isNone_none, and_self,
      natOfDigits_toDigits, Option.map_none, Option.getD_none, Nat.add_zero]
    rw [if_neg (by omega)]

theorem readToken_digit {d : Nat} (hd : d < 10) (offset : Nat) (cs : List Char) :
    readToken offset (d.digitChar :: cs) = (readUnsigned false (d.digitChar :: cs)).getD (.unknown, 1) := by
  interval_cases d <;> rfl

theorem readToken_minus {d : Nat} (hd : d < 10) (offset : Nat) (cs : List Char) :
    readToken offset ('-' :: d.digitChar :: cs) = match readUnsigned true (d.digitChar :: cs) with
      | some (token, length) => (token, length + 1)
      | none => (.unknown, 1) := by
  interval_cases d <;> rfl

/-- The text of a natural number is that of its digits, that of a negative one has a minus in front. -/
theorem toString_int (n : Int) : (toString n).toList =
    if n < 0 then '-' :: Nat.toDigits 10 n.natAbs else Nat.toDigits 10 n.natAbs := by
  rw [Int.toString_eq_repr, Int.repr_eq_if]
  by_cases hn : n < 0
  · rw [if_neg (by omega), if_pos hn, String.toList_append, Nat.toList_repr, show (-n).toNat = n.natAbs by omega]
    rfl
  · rw [if_pos (by omega), if_neg hn, Nat.toList_repr, show n.toNat = n.natAbs by omega]

/-- A written integer is a token. -/
theorem readToken_int {n : Int} (h : (Nat.toDigits 10 n.natAbs).length ≤ maxIntDigits)
    {rest : List Char} (hr : Ended rest) (offset : Nat) :
    readToken offset ((toString n).toList ++ rest) = (.int n, (toString n).toList.length) := by
  obtain ⟨d, tail, hd, htext, -⟩ := toDigits_head n.natAbs
  rw [toString_int]
  split
  · have hread := readUnsigned_toDigits h hr true
    have hvalue : -(n.natAbs : Int) = n := by omega
    rw [if_pos rfl, hvalue] at hread
    rw [List.cons_append, htext, List.cons_append, readToken_minus hd, ← List.cons_append, ← htext, hread]
    rfl
  · have hread := readUnsigned_toDigits h hr false
    have hvalue : (n.natAbs : Int) = n := by omega
    rw [if_neg Bool.false_ne_true, hvalue] at hread
    rw [htext, List.cons_append, readToken_digit hd, ← List.cons_append, ← htext, hread]
    rfl

/-! ## From one token to the next -/

theorem tokensFrom_skip (text rest : List Char) (offset : Nat) :
    tokensFrom offset text.length (text ++ rest) = tokensFrom (offset + text.length) 0 rest := by
  induction text generalizing offset with
  | nil => rfl
  | cons c text ih =>
    rw [List.length_cons, List.cons_append, tokensFrom, ih, Nat.add_right_comm]
    rfl

theorem tokensFrom_token {token : Token} {c : Char} {text rest : List Char} {offset : Nat}
    (h : readToken offset (c :: text ++ rest) = (token, (c :: text).length)) (hc : isSpace c = false) :
    tokensFrom offset 0 (c :: text ++ rest) =
      (offset, token) :: tokensFrom (offset + (c :: text).length) 0 rest := by
  rw [List.cons_append] at h ⊢
  rw [tokensFrom, hc]
  simp only [Bool.false_eq_true, if_false, h, List.length_cons, Nat.add_sub_cancel]
  rw [tokensFrom_skip, Nat.add_assoc, Nat.add_comm 1]

theorem tokensFrom_blanks {blanks : List Char} (h : ∀ c ∈ blanks, isSpace c) (rest : List Char) (offset : Nat) :
    tokensFrom offset 0 (blanks ++ rest) = tokensFrom (offset + blanks.length) 0 rest := by
  induction blanks generalizing offset with
  | nil => rfl
  | cons c blanks ih =>
    rw [List.cons_append, tokensFrom, if_pos (h c List.mem_cons_self),
      ih fun d hd => h d (List.mem_cons_of_mem _ hd), List.length_cons, Nat.add_assoc, Nat.add_comm 1]

theorem isSpace_lineBreak (level : Nat) : ∀ c ∈ lineBreak level, isSpace c := by
  intro c hc
  rcases List.mem_cons.1 hc with rfl | hc
  · rfl
  · rw [List.eq_of_mem_replicate hc]
    rfl

end JniSignatures.Json
