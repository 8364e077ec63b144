import Mathlib
import JniSignatures.Proofs.Symbol.Decoding
/-!
# Three passes as one

A symbol is made by three passes over the whole text: underscores are escaped, then code points beyond ASCII,
and then the pieces between the dots are joined. The last two look for characters that no escape has
(`escape_stands`), so the passes fuse into one that goes code point by code point (`symbol_pointwise`). Hence a
symbol grows with its name, and an underscore in it stands for an underscore, a dot or a code point beyond
ASCII, except for the one in the lead.
-/

namespace JniSignatures.Symbol

/-! ## The passes -/

/-- The last pass: the pieces between the dots, joined by underscores. -/
def joinPieces (cs : List Char) : List Char :=
  ['_'].intercalate (cs.splitOn '.')

theorem joinPieces_of_notMem {cs : List Char} (h : '.' ∉ cs) : joinPieces cs = cs := by
  rw [joinPieces, List.splitOn_eq_singleton h, List.intercalate_singleton]

/-- A code point that the first pass changes is an underscore. -/
theorem eq_underscore_of_freeUnderscore {c : CodePoint} (h : freeUnderscore [c] ≠ [c]) : c = '_' := by
  by_contra hc
  exact h (by simp [freeUnderscore, hc])

theorem dot_notMem_asciiPoint {c : CodePoint} (h : (asciiPoint c).map CodePoint.ofChar ≠ [c]) :
    '.' ∉ asciiPoint c := by
  unfold asciiPoint at h ⊢
  split_ifs at h ⊢ with hc
  · refine absurd ?_ h
    rw [List.map_singleton]
    exact congrArg ([·]) (CodePoint.toNat_injective (toNat_ofNat_ascii hc))
  · simp [dot_notMem_hex]

/-- What a pass puts in the place of a code point, the passes after it leave as it is. -/
theorem escape_stands (c : CodePoint) :
    (freeUnderscore [c] ≠ [c] →
      ((freeUnderscore [c]).flatMap asciiPoint).map CodePoint.ofChar = freeUnderscore [c] ∧
      joinPieces ((freeUnderscore [c]).flatMap asciiPoint) = (freeUnderscore [c]).flatMap asciiPoint) ∧
    ((asciiPoint c).map CodePoint.ofChar ≠ [c] → joinPieces (asciiPoint c) = asciiPoint c) := by
  constructor
  · intro h
    obtain rfl := eq_underscore_of_freeUnderscore h
    decide
  · intro h
    exact joinPieces_of_notMem (dot_notMem_asciiPoint h)

/-! ## One code point -/

/-- The rule for a code point, with the passes out of sight. -/
theorem piece_eq (c : CodePoint) : piece c =
    if c = '_' then ['_', '1']
    else if c = '.' then ['_']
    else if c.toNat ≤ 127 then [Char.ofNat c.toNat]
    else '_' :: '0' :: (Nat.toDigits 16 c.toNat).leftpad 4 '0' := by
  split_ifs with hu hd hc
  · rw [hu, piece_underscore]
  · rw [hd, piece_dot]
  · exact piece_ascii hu hd hc
  · rw [piece, pointPiece_escape (by omega), Text.hex]

/-- Escapes have no characters but underscores and digits. -/
theorem ascii_of_mem_piece {c : CodePoint} {d : Char} (h : d ∈ piece c) : d.toNat ≤ 127 ∧ d ≠ '.' := by
  have hdigit : ∀ k < 16, k.digitChar.toNat ≤ 127 ∧ k.digitChar ≠ '.' := by decide
  rw [piece_eq] at h
  split_ifs at h with hu hd hc
  · rcases List.mem_pair.1 h with rfl | rfl
    · decide
    · decide
  · rw [List.mem_singleton.1 h]
    decide
  · rw [List.mem_singleton.1 h, toNat_ofNat_ascii hc]
    exact ⟨hc, ofNat_toNat_ne hd hc⟩
  · rcases List.mem_cons.1 h with rfl | h
    · decide
    rcases List.mem_cons.1 h with rfl | h
    · decide
    obtain ⟨k, hk, rfl⟩ := Text.exists_digit_of_mem_hex h
    exact hdigit k hk

/-- Whether a code point becomes something with an underscore. -/
def needsUnderscore (c : CodePoint) : Bool :=
  c = '_' ∨ c = '.' ∨ 127 < c.toNat

theorem count_underscore_piece (c : CodePoint) : (piece c).count '_' = if needsUnderscore c then 1 else 0 := by
  by_cases hu : c = '_'
  · subst hu
    decide
  by_cases hd : c = '.'
  · subst hd
    decide
  by_cases hc : c.toNat ≤ 127
  · have hno : needsUnderscore c = false := by simp [needsUnderscore, hu, hd, hc]
    rw [piece_ascii hu hd hc, hno, List.count_singleton]
    simp [ofNat_toNat_ne hu hc]
  · have hyes : needsUnderscore c = true := by simp [needsUnderscore, hu, hd]; omega
    have hdigits : (Text.hex 4 c.toNat).count '_' = 0 := List.count_eq_zero.2 (underscore_notMem_hex _ _)
    rw [piece, pointPiece_escape (by omega), hyes, List.count_cons_self, List.count_cons_of_ne (by decide), hdigits]
    rfl

/-! ## The whole symbol -/

theorem toList_ofName (name : Text) : (ofName name).toList = lead ++ name.points.flatMap piece := by
  rw [ofName_eq, String.toList_ofList]

theorem count_underscore_ofName (name : Text) :
    (ofName name).toList.count '_' = 1 + name.points.countP needsUnderscore := by
  rw [toList_ofName, List.count_append, show lead.count '_' = 1 by decide, List.count_flatMap]
  congr 1
  induction name.points with
  | nil => rfl
  | cons c cs ih =>
    rw [List.map_cons, List.sum_cons, ih, Function.comp_apply, count_underscore_piece, List.countP_cons, Nat.add_comm]

/-- The symbol of a name is its lead and then, code point by code point, what the rule says, although it is made
in three passes: none of them changes what another has put in the place of a code point. So the symbol of two
names in a row is the symbol of the first and, without its lead, that of the second; it is a text in ASCII
without dots, it is never the name of the function that runs on loading, and its underscores can be counted
in the name. -/
theorem symbol_pointwise (x y : Text) :
    ofName x = String.ofList (lead ++ x.points.flatMap piece) ∧
    (∀ c, piece c =
      if c = '_' then ['_', '1']
      else if c = '.' then ['_']
      else if c.toNat ≤ 127 then [Char.ofNat c.toNat]
      else '_' :: '0' :: (Nat.toDigits 16 c.toNat).leftpad 4 '0') ∧
    (∀ c, (freeUnderscore [c] ≠ [c] →
        ((freeUnderscore [c]).flatMap asciiPoint).map CodePoint.ofChar = freeUnderscore [c] ∧
        joinPieces ((freeUnderscore [c]).flatMap asciiPoint) = (freeUnderscore [c]).flatMap asciiPoint) ∧
      ((asciiPoint c).map CodePoint.ofChar ≠ [c] → joinPieces (asciiPoint c) = asciiPoint c)) ∧
    (ofName (x ++ y)).toList = (ofName x).toList ++ (ofName y).toList.drop lead.length ∧
    (∀ c ∈ (ofName x).toList, c.toNat ≤ 127 ∧ c ≠ '.') ∧
    lead <+: (ofName x).toList ∧ ofName x ≠ onLoad ∧
    (ofName x).toList.count '_' = 1 + x.points.countP fun c : CodePoint => c = '_' ∨ c = '.' ∨ 127 < c.toNat := by
  refine ⟨ofName_eq x, piece_eq, escape_stands, ?_, ?_, ?_, ?_, count_underscore_ofName x⟩
  · rw [toList_ofName, toList_ofName, toList_ofName, Text.points_append, List.flatMap_append, List.drop_left,
      List.append_assoc]
  · rw [toList_ofName]
    refine List.forall_mem_append.2 ⟨by simp [lead], fun c hc => ?_⟩
    obtain ⟨d, -, hd⟩ := List.mem_flatMap.1 hc
    exact ascii_of_mem_piece hd
  · rw [toList_ofName]
    exact List.prefix_append _ _
  · intro h
    have hlead : isSymbol onLoad = true := by
      rw [isSymbol, ← h, toList_ofName, List.isPrefixOf_iff_prefix]
      exact List.prefix_append _ _
    exact absurd hlead (by decide)

end JniSignatures.Symbol
