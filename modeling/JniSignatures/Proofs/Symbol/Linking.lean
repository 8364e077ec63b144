import Mathlib
import JniSignatures.Proofs.Symbol.Encoding
/-!
# The symbols that a toolchain emits

A toolchain for native methods has its own rule for symbols (`linked`): letters and digits of ASCII stand as
they are, and whatever is neither these nor a dot nor an underscore becomes an escape of four digits. Of the
code points of a qualified name (`isQualified`) only the dollar sign, which joins the names of nested classes,
is treated otherwise here: it stands as it is. So the symbols of the names without a dollar sign are those of
the toolchain, and no others are (`symbol_of_qualified`).
-/

namespace JniSignatures.Symbol

/-! ## Qualified names -/

/-- A letter or digit of ASCII. -/
def isLetter (c : CodePoint) : Bool :=
  c.char?.any Char.isAlphanum

/-- A code point of an identifier: a letter or digit of ASCII, an underscore, a dollar sign, or a code point of
16 bits beyond ASCII. -/
def isIdentifierPoint (c : CodePoint) : Bool :=
  isLetter c || c = '_' || c = '$' || (127 < c.toNat && c.toNat ≤ 0xFFFF)

/-- An identifier is not empty and does not start with a digit. -/
def isIdentifier : List CodePoint → Bool
  | [] => false
  | c :: cs => !c.char?.any Char.isDigit && (c :: cs).all isIdentifierPoint

/-- A qualified name is made of identifiers between dots. -/
def isQualified (name : Text) : Bool :=
  (name.points.splitOn ('.' : CodePoint)).all isIdentifier

theorem mem_of_mem_intercalate {α : Type} {c : α} {separator : List α} {pieces : List (List α)}
    (h : c ∈ separator.intercalate pieces) : c ∈ separator ∨ ∃ piece ∈ pieces, c ∈ piece := by
  induction pieces with
  | nil => simp at h
  | cons front others ih =>
    cases others with
    | nil => exact .inr ⟨front, List.mem_singleton_self _, by simpa using h⟩
    | cons second others =>
      rw [List.intercalate_cons_cons, List.mem_append, List.mem_append] at h
      rcases h with (hfront | hseparator) | hothers
      · exact .inr ⟨front, List.mem_cons_self, hfront⟩
      · exact .inl hseparator
      · exact (ih hothers).imp_right fun ⟨piece, hmem, hc⟩ => ⟨piece, List.mem_cons_of_mem _ hmem, hc⟩

/-- Between the dots of a qualified name there are only code points of identifiers. -/
theorem isIdentifierPoint_of_mem {name : Text} (h : isQualified name) {c : CodePoint} (hc : c ∈ name.points) :
    c = '.' ∨ isIdentifierPoint c := by
  rw [← @List.intercalate_splitOn _ name.points _ _ '.'] at hc
  rcases mem_of_mem_intercalate hc with hdot | ⟨identifier, hmem, hc⟩
  · exact .inl (List.mem_singleton.1 hdot)
  · have hidentifier := List.all_eq_true.1 h identifier hmem
    cases identifier with
    | nil => cases hc
    | cons first rest =>
      rw [isIdentifier, Bool.and_eq_true] at hidentifier
      exact .inr (List.all_eq_true.1 hidentifier.2 c hc)

/-! ## The rule of the toolchain -/

/-- The four hexadecimal digits of a unit of 16 bits. -/
def fourDigits (n : Nat) : List Char :=
  [4096, 256, 16, 1].map fun place => (n / place % 16).digitChar

/-- What the toolchain makes of a code point. -/
def linkedPiece (c : CodePoint) : List Char :=
  if c = '.' then ['_']
  else if c = '_' then ['_', '1']
  else if isLetter c then [Char.ofNat c.toNat]
  else '_' :: '0' :: fourDigits c.toNat

/-- The symbol that the toolchain emits for a qualified name. -/
def linked (name : Text) : String :=
  String.ofList (lead ++ name.points.flatMap linkedPiece)

theorem hex_eq_fourDigits {n : Nat} (h : n < 0x10000) : Text.hex 4 n = fourDigits n := by
  rw [Text.hex_four h, fourDigits, List.map_cons, List.map_cons, List.map_cons, List.map_singleton, Nat.div_one,
    Nat.mod_eq_of_lt (by omega : n / 4096 < 16)]

theorem exists_of_isLetter {c : CodePoint} (h : isLetter c) : ∃ d : Char, c = d ∧ d.isAlphanum := by
  obtain ⟨d, hd, hletter⟩ := (Option.any_eq_true ..).1 h
  exact ⟨d, CodePoint.char?_eq_some_iff.1 hd, hletter⟩

theorem toNat_of_isLetter {c : CodePoint} (h : isLetter c) : c.toNat ≤ 127 := by
  obtain ⟨d, rfl, hd⟩ := exists_of_isLetter h
  rw [CodePoint.toNat_ofChar]
  simp only [Char.isAlphanum, Char.isAlpha, Char.isUpper, Char.isLower, Char.isDigit, Bool.or_eq_true,
    Bool.and_eq_true, decide_eq_true_eq, ge_iff_le, UInt32.le_iff_toNat_le, Char.reduceVal, UInt32.reduceToNat,
    Char.toNat_val] at hd
  omega

/-- The two rules part at the dollar sign only. -/
theorem piece_eq_linkedPiece {c : CodePoint} (h : c = '.' ∨ isIdentifierPoint c) :
    piece c = if c = '$' then ['$'] else linkedPiece c := by
  by_cases hdot : c = '.'
  · subst hdot
    decide
  by_cases hunderscore : c = '_'
  · subst hunderscore
    decide
  by_cases hdollar : c = '$'
  · subst hdollar
    decide
  rw [if_neg hdollar, linkedPiece, if_neg hdot, if_neg hunderscore]
  by_cases hletter : isLetter c
  · rw [if_pos hletter, piece_ascii hunderscore hdot (toNat_of_isLetter hletter)]
  · -- What is left of the code points of identifiers is beyond ASCII.
    have hrange : 127 < c.toNat ∧ c.toNat ≤ 0xFFFF := by
      simpa [isIdentifierPoint, hletter, hunderscore, hdollar] using h.resolve_left hdot
    rw [if_neg hletter, piece, pointPiece_escape hrange.1, hex_eq_fourDigits (by omega)]

/-- The toolchain leaves no dollar sign. -/
theorem dollar_notMem_linkedPiece (c : CodePoint) : '$' ∉ linkedPiece c := by
  have hdigit : ∀ d < 16, '$' ≠ d.digitChar := by decide
  unfold linkedPiece
  split_ifs with hdot hunderscore hletter
  · decide
  · decide
  · obtain ⟨d, rfl, hletter⟩ := exists_of_isLetter hletter
    rw [CodePoint.toNat_ofChar, Char.ofNat_toNat, List.mem_singleton]
    rintro rfl
    exact absurd hletter (by decide)
  · have hdigits : '$' ∉ fourDigits c.toNat := by
      intro h
      obtain ⟨place, -, hplace⟩ := List.mem_map.1 h
      exact hdigit _ (Nat.mod_lt _ (by decide)) hplace.symm
    simp [hdigits]

/-! ## The two rules on names -/

theorem toList_linked (name : Text) : (linked name).toList = lead ++ name.points.flatMap linkedPiece := by
  rw [linked, String.toList_ofList]

theorem dollar_notMem_linked (name : Text) : '$' ∉ (linked name).toList := by
  rw [toList_linked, List.mem_append, List.mem_flatMap, not_or]
  refine ⟨by decide, ?_⟩
  rintro ⟨c, -, hc⟩
  exact dollar_notMem_linkedPiece c hc

theorem flatMap_piece {name : Text} (h : isQualified name) : name.points.flatMap piece =
    name.points.flatMap fun c : CodePoint => if c = '$' then ['$'] else linkedPiece c :=
  List.flatMap_congr fun _ hc => piece_eq_linkedPiece (isIdentifierPoint_of_mem h hc)

/-- A dollar sign in a name is one in its symbol. -/
theorem dollar_mem_ofName {name : Text} (h : ('$' : CodePoint) ∈ name.points) : '$' ∈ (ofName name).toList := by
  rw [toList_ofName, List.mem_append]
  exact .inr (List.mem_flatMap.2 ⟨'$', h, by decide⟩)

/-- The symbol of a qualified name is its lead and then, code point by code point, what the toolchain makes of it,
but for the dollar sign, which stands as it is. So it is the symbol that the toolchain emits exactly if there
is no dollar sign in the name. -/
theorem symbol_of_qualified {name : Text} (h : isQualified name) :
    ofName name = String.ofList (lead ++
      name.points.flatMap fun c : CodePoint => if c = '$' then ['$'] else linkedPiece c) ∧
    (ofName name = linked name ↔ ('$' : CodePoint) ∉ name.points) := by
  have hpieces : ofName name = String.ofList (lead ++
      name.points.flatMap fun c : CodePoint => if c = '$' then ['$'] else linkedPiece c) := by
    rw [← flatMap_piece h]
    exact ofName_eq name
  refine ⟨hpieces, fun heq hdollar => ?_, fun hdollar => ?_⟩
  · have hmem := dollar_mem_ofName hdollar
    rw [heq] at hmem
    exact dollar_notMem_linked name hmem
  · have hlinked : (name.points.flatMap fun c : CodePoint => if c = '$' then ['$'] else linkedPiece c) =
        name.points.flatMap linkedPiece := by
      refine List.flatMap_congr fun c hc => if_neg ?_
      rintro rfl
      exact hdollar hc
    rw [hpieces, hlinked, linked]

theorem symbol_of_escaped : isQualified "com.my_app.Café.谢" ∧
    ofName "com.my_app.Café.谢" = "Java_com_my_1app_Caf_000e9__08c22" ∧
    ofName "com.my_app.Café.谢" = linked "com.my_app.Café.谢" := by
  have hqualified : isQualified "com.my_app.Café.谢" := by decide
  exact ⟨hqualified, by decide, (symbol_of_qualified hqualified).2.2 (by decide)⟩

/-- A method of a nested class has another symbol than the one that the toolchain emits. -/
theorem symbol_of_nested : isQualified "p.Outer$Inner.f" ∧
    ofName "p.Outer$Inner.f" = "Java_p_Outer$Inner_f" ∧ linked "p.Outer$Inner.f" = "Java_p_Outer_00024Inner_f" ∧
    ofName "p.Outer$Inner.f" ≠ linked "p.Outer$Inner.f" := by
  decide

end JniSignatures.Symbol
