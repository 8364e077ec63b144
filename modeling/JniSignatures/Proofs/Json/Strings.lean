import Mathlib
import JniSignatures.Json.Token
import JniSignatures.Json.Writer
import JniSignatures.Proofs.Text.CodePoint
import JniSignatures.Proofs.Text.Hex
/-!
# Strings read as they were written

A written string is read back character by character. A character beyond U+FFFF goes through the
escapes of a surrogate pair, which the reader joins again; no other character is written as a
surrogate, so nothing else is joined. A text with surrogates need not be read back: two of them that
make a pair are joined.
-/

namespace JniSignatures

namespace Json

/-! ## Escapes of units -/

theorem hexUnit?_digits {n : Nat} (h : n < 0x10000) :
    hexUnit? (n / 4096).digitChar (n / 256 % 16).digitChar (n / 16 % 16).digitChar (n % 16).digitChar =
      some n := by
  rw [hexUnit?, Text.hexValue?_digitChar _ (by omega), Text.hexValue?_digitChar _ (by omega),
    Text.hexValue?_digitChar _ (by omega), Text.hexValue?_digitChar _ (by omega)]
  refine congrArg some ?_
  omega

theorem unitEscape_length {n : Nat} (h : n < 0x10000) : (unitEscape n).length = 6 := by
  rw [unitEscape, Text.hex_four h]
  rfl

/-- What is added to the front of a string that has been read. -/
def prepend (c : CodePoint) (result : Except (StringFault × Nat) (List CodePoint × Nat)) :
    Except (StringFault × Nat) (List CodePoint × Nat) :=
  result.map fun (points, stop) => (c :: points, stop)

section Reading

variable {start offset n : Nat} {next : Char} {rest : List Char}

theorem readString_unit (h : n < 0x10000) (hh : isHighSurrogate n = false) :
    readString start offset false (unitEscape n ++ next :: rest) =
      prepend (.ofNat n) (readString start (offset + 6) false (next :: rest)) := by
  rw [unitEscape, Text.hex_four h]
  simp only [List.cons_append, List.nil_append]
  rw [readString, hexUnit?_digits h]
  simp [hh, prepend]

theorem readString_paired (h : n < 0x10000) :
    readString start offset true (unitEscape n ++ next :: rest) =
      readString start (offset + 6) false (next :: rest) := by
  rw [unitEscape, Text.hex_four h]
  simp only [List.cons_append, List.nil_append]
  rw [readString, hexUnit?_digits h]
  simp

theorem lowSurrogate?_unit (h : n < 0x10000) (hl : isLowSurrogate n) :
    lowSurrogate? (unitEscape n ++ next :: rest) = some n := by
  rw [unitEscape, Text.hex_four h]
  simp only [List.cons_append, List.nil_append]
  rw [lowSurrogate?, hexUnit?_digits h, Option.filter_some, if_pos hl]

theorem readString_pair {high low : Nat} (hh : isHighSurrogate high) (hl : isLowSurrogate low) :
    readString start offset false (unitEscape high ++ (unitEscape low ++ next :: rest)) =
      prepend (.ofNat (joinSurrogates high low))
        (readString start (offset + 12) false (next :: rest)) := by
  have bounds : high < 0x10000 ∧ low < 0x10000 := by
    simp only [isHighSurrogate, isLowSurrogate, Bool.and_eq_true, decide_eq_true_eq] at hh hl
    omega
  have hlow : lowSurrogate? (unitEscape low ++ next :: rest) = some low := lowSurrogate?_unit bounds.2 hl
  have hpaired : readString start (offset + 6) true (unitEscape low ++ next :: rest) = _ :=
    readString_paired bounds.2
  -- The reader looks at the second escape twice: for its unit, and then to pass over it.
  generalize htext : unitEscape low ++ next :: rest = text at hlow hpaired ⊢
  obtain ⟨c, tail, rfl⟩ : ∃ c tail, text = c :: tail := ⟨_, _, htext.symm⟩
  rw [unitEscape, Text.hex_four bounds.1]
  simp only [List.cons_append, List.nil_append]
  rw [readString, hexUnit?_digits bounds.1]
  simp only [Bool.false_eq_true, if_false, hh, if_true, hlow, hpaired]
  rfl

end Reading

/-! ## Characters -/

theorem surrogates_of_char (c : Char) : isHighSurrogate c.toNat = false ∧ isLowSurrogate c.toNat = false := by
  have hvalid := c.valid
  simp only [isHighSurrogate, isLowSurrogate, Bool.and_eq_false_iff, decide_eq_false_iff_not]
  rcases hvalid with h | ⟨h, -⟩ <;> simp only [Char.toNat] <;> omega

/-- The two halves of a code point beyond U+FFFF make it again. -/
theorem joinSurrogates_halves {n : Nat} (h : 0x10000 ≤ n) :
    joinSurrogates (0xD800 + (n - 0x10000) / 0x400) (0xDC00 + (n - 0x10000) % 0x400) = n := by
  unfold joinSurrogates
  omega

theorem readString_plain {start offset : Nat} {c : Char} {rest : List Char} (hq : c ≠ '"') (hb : c ≠ '\\')
    (hc : 0x20 ≤ c.toNat) :
    readString start offset false (c :: rest) = prepend c (readString start (offset + 1) false rest) := by
  rw [readString]
  · rw [if_neg (by omega)]
    rfl
  all_goals
    intros
    contradiction

theorem readString_writePoint (c next : Char) (rest : List Char) (start offset : Nat) :
    readString start offset false (writePoint c ++ next :: rest) =
      prepend c (readString start (offset + (writePoint c).length) false (next :: rest)) := by
  have hlt : c.toNat < 0x110000 := (CodePoint.ofChar c).isLt
  unfold writePoint
  simp only
  -- The two-character escapes, then the character itself, then one and two units.
  split_ifs with h1 h2 h3 h4 h5 h6 h7 h8 h9
  · rw [CodePoint.ofChar_inj.1 h1]; rfl
  · rw [CodePoint.ofChar_inj.1 h2]; rfl
  · rw [CodePoint.ofChar_inj.1 h3]; rfl
  · rw [CodePoint.ofChar_inj.1 h4]; rfl
  · rw [CodePoint.ofChar_inj.1 h5]; rfl
  · rw [CodePoint.ofChar_inj.1 h6]; rfl
  · rw [CodePoint.ofChar_inj.1 h7]; rfl
  · rw [CodePoint.toNat_ofChar, Char.ofNat_toNat]
    exact readString_plain (mt CodePoint.ofChar_inj.2 h1) (mt CodePoint.ofChar_inj.2 h2) h8.1
  · rw [CodePoint.toNat_ofChar] at h9 ⊢
    rw [readString_unit h9 (surrogates_of_char c).1, CodePoint.ofNat_toNat, unitEscape_length h9]
  · rw [CodePoint.toNat_ofChar] at h9 ⊢
    have hn : 0x10000 ≤ c.toNat := by omega
    have hhigh : isHighSurrogate (0xD800 + (c.toNat - 0x10000) / 0x400) := by
      simp only [isHighSurrogate, Bool.and_eq_true, decide_eq_true_eq]
      omega
    have hlow : isLowSurrogate (0xDC00 + (c.toNat - 0x10000) % 0x400) := by
      simp only [isLowSurrogate, Bool.and_eq_true, decide_eq_true_eq]
      omega
    rw [List.append_assoc, readString_pair hhigh hlow, joinSurrogates_halves hn, CodePoint.ofNat_toNat,
      List.length_append, unitEscape_length (by omega), unitEscape_length (by omega)]

/-! ## Strings -/

theorem readString_chars (cs rest : List Char) (start offset : Nat) :
    readString start offset false ((cs.map CodePoint.ofChar).flatMap writePoint ++ '"' :: rest) =
      .ok (cs.map CodePoint.ofChar, offset + ((cs.map CodePoint.ofChar).flatMap writePoint).length + 1) := by
  induction cs generalizing offset with
  | nil => rfl
  | cons c cs ih =>
    obtain ⟨next, tail, htail⟩ :
        ∃ next tail, (cs.map CodePoint.ofChar).flatMap writePoint ++ '"' :: rest = next :: tail :=
      List.exists_cons_of_ne_nil (by simp)
    rw [List.map_cons, List.flatMap_cons, List.append_assoc, htail, readString_writePoint, ← htail, ih,
      List.length_append, Nat.add_assoc offset]
    rfl

theorem readToken_quote (offset : Nat) (cs : List Char) :
    readToken offset ('"' :: cs) = match readString offset (offset + 1) false cs with
      | .ok (points, stop) => (Token.string ⟨points⟩, stop - offset)
      | .error (fault, place) => (Token.badString fault place, 1) :=
  rfl

/-- A written string is a token. -/
theorem readToken_writeString (s : String) (rest : List Char) (offset : Nat) :
    readToken offset (writeString s ++ rest) = (.string s, (writeString s).length) := by
  have htext : writeString s ++ rest =
      '"' :: ((s.toList.map CodePoint.ofChar).flatMap writePoint ++ '"' :: rest) := by
    simp only [writeString, Text.points_ofString, List.cons_append, List.append_assoc, List.nil_append]
  rw [htext, readToken_quote, readString_chars]
  simp only [writeString, Text.points_ofString, List.cons_append, List.length_cons, List.length_append,
    List.length_nil]
  refine congrArg (Token.string s, ·) ?_
  omega

end Json

end JniSignatures
