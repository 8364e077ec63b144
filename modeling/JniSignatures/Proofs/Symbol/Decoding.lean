import Mathlib
import JniSignatures.Proofs.Text.CodePoint
import JniSignatures.Proofs.Text.Hex
import JniSignatures.Symbol
/-!
# Which names have one symbol

A symbol is made code point by code point (`ofName_eq`), so it can be read from the front: behind an
underscore, a one stands for an underscore, a zero for a code point of four digits, and anything else
shows that the underscore stands for a dot. The last is wrong only for a name in which a zero or a one
follows a dot. A code point with more than four digits is read as the one that its first four digits
denote, with the other digits as characters behind it (`spread`). So two names have one symbol if and
only if they spread alike.
-/

namespace JniSignatures.Symbol

/-! ## Code point by code point -/

/-- What the code point of a number becomes in a symbol. -/
def pointPiece (n : Nat) : List Char :=
  if n = '_'.toNat then ['_', '1']
  else if n = '.'.toNat then ['_']
  else if n ≤ 127 then [Char.ofNat n]
  else '_' :: '0' :: Text.hex 4 n

/-- What a code point becomes in a symbol. -/
def piece (c : CodePoint) : List Char :=
  pointPiece c.toNat

theorem piece_underscore : piece '_' = ['_', '1'] := by decide

theorem piece_dot : piece '.' = ['_'] := by decide

theorem toNat_ne {c d : CodePoint} (h : c ≠ d) : c.toNat ≠ d.toNat :=
  mt CodePoint.toNat_injective h

theorem toNat_ofNat_ascii {n : Nat} (h : n ≤ 127) : (Char.ofNat n).toNat = n :=
  (Char.toNat_ofNat n).trans (if_pos (.inl (by omega)))

theorem ofNat_toNat_ne {c : CodePoint} {d : Char} (h : c ≠ d) (hc : c.toNat ≤ 127) : Char.ofNat c.toNat ≠ d := by
  rintro rfl
  exact toNat_ne h (toNat_ofNat_ascii hc).symm

theorem piece_ascii {c : CodePoint} (hu : c ≠ '_') (hd : c ≠ '.') (hc : c.toNat ≤ 127) :
    piece c = [Char.ofNat c.toNat] := by
  have hu' : c.toNat ≠ '_'.toNat := toNat_ne hu
  have hd' : c.toNat ≠ '.'.toNat := toNat_ne hd
  rw [piece, pointPiece, if_neg hu', if_neg hd', if_pos hc]

theorem pointPiece_escape {n : Nat} (h : 127 < n) : pointPiece n = '_' :: '0' :: Text.hex 4 n := by
  have hu : n ≠ '_'.toNat := by
    rintro rfl
    exact absurd h (by decide)
  have hd : n ≠ '.'.toNat := by
    rintro rfl
    exact absurd h (by decide)
  rw [pointPiece, if_neg hu, if_neg hd, if_neg (by omega)]

theorem pointPiece_digit : ∀ d < 16, pointPiece d.digitChar.toNat = [d.digitChar] := by decide

theorem dot_notMem_hex (width n : Nat) : '.' ∉ Text.hex width n := by
  intro h
  obtain ⟨d, hd, hc⟩ := Text.exists_digit_of_mem_hex h
  have hdigit : ∀ d < 16, '.' ≠ d.digitChar := by decide
  exact hdigit d hd hc

/-- Dots give way to underscores. -/
def joinChar (c : Char) : Char :=
  if c = '.' then '_' else c

/-- Cutting at the dots and joining by underscores changes nothing but the dots. -/
theorem intercalate_splitOn_dot (cs : List Char) : ['_'].intercalate (cs.splitOn '.') = cs.map joinChar := by
  induction cs with
  | nil => rfl
  | cons c cs ih =>
    rw [List.splitOn] at ih ⊢
    rw [List.splitOnP_cons_eq_if_modifyHead, List.map_cons]
    have hne : cs.splitOnP (· == '.') ≠ [] := List.splitOnP_ne_nil _ _
    by_cases hc : c = '.'
    · rw [if_pos (by simpa using hc), List.intercalate_cons_of_ne_nil hne, ih, joinChar, if_pos hc]
      rfl
    · rw [if_neg (by simpa using hc), joinChar, if_neg hc, ← ih]
      obtain ⟨front, others, hpieces⟩ := List.exists_cons_of_ne_nil hne
      rw [hpieces, List.modifyHead_cons]
      cases others with
      | nil => simp
      | cons second others => simp [List.intercalate_cons_cons]

/-- The three steps on one code point. -/
theorem map_joinChar_ascii (c : CodePoint) : ((freeUnderscore [c]).flatMap asciiPoint).map joinChar = piece c := by
  by_cases hu : c = '_'
  · subst hu
    decide
  · have hfree : freeUnderscore [c] = [c] := by simp [freeUnderscore, hu]
    rw [hfree, List.flatMap_singleton, asciiPoint]
    split
    · rename_i hc
      by_cases hd : c = '.'
      · subst hd
        decide
      · rw [piece_ascii hu hd hc, List.map_singleton, joinChar, if_neg (ofNat_toNat_ne hd hc)]
    · rename_i hc
      rw [piece, pointPiece_escape (by omega)]
      have hdigits : (Text.hex 4 c.toNat).map joinChar = Text.hex 4 c.toNat := by
        refine (List.map_congr_left ?_).trans (List.map_id _)
        intro d hd
        have : d ≠ '.' := by
          rintro rfl
          exact dot_notMem_hex _ _ hd
        simp [joinChar, this]
      rw [List.map_cons, List.map_cons, hdigits]
      rfl

/-- A symbol is made code point by code point. -/
theorem ofName_eq (name : Text) : ofName name = String.ofList (lead ++ name.points.flatMap piece) := by
  unfold ofName ascii
  simp only [String.toList_ofList, intercalate_splitOn_dot]
  congr 2
  induction name.points with
  | nil => rfl
  | cons c cs ih =>
    have hcons : freeUnderscore (c :: cs) = freeUnderscore [c] ++ freeUnderscore cs := by
      simp [freeUnderscore]
    rw [hcons, List.flatMap_append, List.map_append, ih, map_joinChar_ascii, List.flatMap_cons]

/-! ## What names are read as -/

/-- The code points that a code point is read as: above U+FFFF, the one that its first four digits denote, and
the other digits. -/
def spread (c : CodePoint) : List Nat :=
  if c.toNat ≤ 0xFFFF then [c.toNat]
  else Text.hexNumber ((Text.hex 4 c.toNat).take 4) :: ((Text.hex 4 c.toNat).drop 4).map Char.toNat

/-- What a name is read as. -/
def spreadName (name : Text) : List Nat :=
  name.points.flatMap spread

/-- The first four digits of a code point above U+FFFF are those of one of 16 bits. -/
theorem exists_hex_eq_append {n : Nat} (hlow : 0x10000 ≤ n) (hhigh : n < 0x110000) :
    ∃ m digits, 0x1000 ≤ m ∧ m < 0x10000 ∧ Text.hex 4 n = Text.hex 4 m ++ digits := by
  by_cases hfive : n / 16 < 0x10000
  · exact ⟨n / 16, _, by omega, hfive, Text.hex_concat hlow⟩
  · refine ⟨n / 16 / 16, [(n / 16 % 16).digitChar, (n % 16).digitChar], by omega, by omega, ?_⟩
    rw [Text.hex_concat hlow, Text.hex_concat (by omega : 0x10000 ≤ n / 16), List.append_assoc]
    rfl

/-- A code point is read as itself, or as one of 16 bits that begins with the same digits and with the digits
that remain behind it. -/
theorem spread_cases (c : CodePoint) :
    (c.toNat ≤ 0xFFFF ∧ spread c = [c.toNat]) ∨
    ∃ m digits, 0x1000 ≤ m ∧ m < 0x10000 ∧ 0x10000 ≤ c.toNat ∧ Text.hex 4 c.toNat = Text.hex 4 m ++ digits ∧
      spread c = m :: digits.map Char.toNat := by
  by_cases hc : c.toNat ≤ 0xFFFF
  · left
    exact ⟨hc, if_pos hc⟩
  · right
    obtain ⟨m, digits, hm, hm', hhex⟩ := exists_hex_eq_append (n := c.toNat) (by omega) c.isLt
    refine ⟨m, digits, hm, hm', by omega, hhex, ?_⟩
    have hlength := Text.length_hex_four hm'
    rw [spread, if_neg hc, hhex, List.take_left' hlength, List.drop_left' hlength, Text.hexNumber_hex]

/-- The symbol depends only on what the name is read as. -/
theorem flatMap_pointPiece_spread (c : CodePoint) : (spread c).flatMap pointPiece = piece c := by
  rcases spread_cases c with ⟨-, hspread⟩ | ⟨m, digits, hm, -, hc, hhex, hspread⟩
  · rw [hspread, List.flatMap_singleton, piece]
  · have hdigits : (digits.map Char.toNat).flatMap pointPiece = digits := by
      have hmem : ∀ c ∈ digits, ∃ d < 16, c = d.digitChar := by
        intro d hd
        apply Text.exists_digit_of_mem_hex
        rw [hhex]
        exact List.mem_append_right _ hd
      clear hspread hhex
      induction digits with
      | nil => rfl
      | cons d digits ih =>
        obtain ⟨k, hk, rfl⟩ := hmem d List.mem_cons_self
        rw [List.map_cons, List.flatMap_cons, pointPiece_digit k hk, ih fun e he => hmem e (List.mem_cons_of_mem _ he)]
        rfl
    rw [hspread, List.flatMap_cons, hdigits, pointPiece_escape (by omega), piece, pointPiece_escape (by omega), hhex]
    rfl

/-! ## Reading a symbol -/

/-- The code points that the text behind the lead of a symbol stands for. -/
def read : List Char → List Nat
  | '_' :: '1' :: rest => '_'.toNat :: read rest
  | '_' :: '0' :: a :: b :: c :: d :: rest => Text.hexNumber [a, b, c, d] :: read rest
  | '_' :: rest => '.'.toNat :: read rest
  | c :: rest => c.toNat :: read rest
  | [] => []

/-- Other characters stand for themselves. -/
theorem read_cons {c : Char} (h : c ≠ '_') (rest : List Char) : read (c :: rest) = c.toNat :: read rest := by
  rw [read] <;> simp_all

theorem read_append {cs : List Char} (h : '_' ∉ cs) (rest : List Char) :
    read (cs ++ rest) = cs.map Char.toNat ++ read rest := by
  induction cs with
  | nil => rfl
  | cons c cs ih =>
    rw [List.mem_cons, not_or] at h
    rw [List.cons_append, read_cons (Ne.symm h.1), ih h.2]
    rfl

/-- An underscore stands for a dot if neither a zero nor a one follows. -/
theorem read_dot {rest : List Char} (h : ∀ c ∈ rest.head?, c ≠ '0' ∧ c ≠ '1') :
    read ('_' :: rest) = '.'.toNat :: read rest := by
  cases rest with
  | nil => rfl
  | cons c rest =>
    obtain ⟨h0, h1⟩ := h c rfl
    rw [read] <;> simp_all

/-- An escape is read as the code point of its four digits. -/
theorem read_escape {m : Nat} (h : m < 0x10000) (rest : List Char) :
    read ('_' :: '0' :: Text.hex 4 m ++ rest) = m :: read rest := by
  have hnumber := Text.hexNumber_hex 4 m
  rw [Text.hex_four h] at hnumber ⊢
  show Text.hexNumber _ :: read rest = m :: read rest
  rw [hnumber]

theorem underscore_notMem_hex (width n : Nat) : '_' ∉ Text.hex width n := by
  intro h
  obtain ⟨d, hd, hc⟩ := Text.exists_digit_of_mem_hex h
  have hdigit : ∀ d < 16, '_' ≠ d.digitChar := by decide
  exact hdigit d hd hc

/-- An escape is read as what its code point spreads to. -/
theorem read_piece_escape {c : CodePoint} (h : 127 < c.toNat) (rest : List Char) :
    read (piece c ++ rest) = spread c ++ read rest := by
  rw [piece, pointPiece_escape h]
  rcases spread_cases c with ⟨hc, hspread⟩ | ⟨m, digits, -, hm, -, hhex, hspread⟩
  · rw [hspread, read_escape (by omega)]
    rfl
  · have hdigits : '_' ∉ digits := by
      intro hmem
      apply underscore_notMem_hex 4 c.toNat
      rw [hhex]
      exact List.mem_append_right _ hmem
    rw [hspread, hhex, ← List.cons_append, ← List.cons_append, List.append_assoc, read_escape hm, read_append hdigits]
    rfl

/-! ## Names without a digit behind a dot that could be mistaken -/

/-- Neither a zero nor a one follows a dot. -/
def Unmistakable (name : Text) : Prop :=
  ¬ [('.' : CodePoint), '0'] <:+: name.points ∧ ¬ [('.' : CodePoint), '1'] <:+: name.points

instance (name : Text) : Decidable (Unmistakable name) :=
  inferInstanceAs (Decidable (_ ∧ _))

/-- What becomes of a code point starts with a zero or a one only if the code point does. -/
theorem head?_piece {c : CodePoint} (h0 : c ≠ '0') (h1 : c ≠ '1') (rest : List Char) :
    ∀ d ∈ (piece c ++ rest).head?, d ≠ '0' ∧ d ≠ '1' := by
  by_cases hu : c = '_'
  · simp [hu, piece_underscore]
  by_cases hd : c = '.'
  · simp [hd, piece_dot]
  by_cases hc : c.toNat ≤ 127
  · simp [piece_ascii hu hd hc, ofNat_toNat_ne h0 hc, ofNat_toNat_ne h1 hc]
  · simp [piece, pointPiece_escape (show 127 < c.toNat by omega)]

/-- What stands behind the lead of a symbol is read as what the name spreads to. -/
theorem read_flatMap_piece {cs : List CodePoint} (h0 : ¬ [('.' : CodePoint), '0'] <:+: cs)
    (h1 : ¬ [('.' : CodePoint), '1'] <:+: cs) :
    read (cs.flatMap piece) = cs.flatMap spread := by
  induction cs with
  | nil => rfl
  | cons c cs ih =>
    have hrest := ih (fun h => h0 (h.trans (List.suffix_cons c cs).isInfix))
      (fun h => h1 (h.trans (List.suffix_cons c cs).isInfix))
    rw [List.flatMap_cons, List.flatMap_cons, ← hrest]
    by_cases hc : 127 < c.toNat
    · exact read_piece_escape hc _
    have hspread : spread c = [c.toNat] := if_pos (by omega)
    rw [hspread]
    by_cases hu : c = '_'
    · subst hu
      rw [piece_underscore]
      rfl
    by_cases hd : c = '.'
    · subst hd
      rw [piece_dot]
      -- The name goes on with neither a zero nor a one, and so does the symbol.
      apply read_dot
      cases cs with
      | nil => simp
      | cons d cs =>
        rw [List.flatMap_cons]
        apply head?_piece
        · rintro rfl
          exact h0 ⟨[], cs, rfl⟩
        · rintro rfl
          exact h1 ⟨[], cs, rfl⟩
    · have hc' : c.toNat ≤ 127 := by omega
      rw [piece_ascii hu hd hc', List.singleton_append, read_cons (ofNat_toNat_ne hu hc'), toNat_ofNat_ascii hc']
      rfl

/-- Of such names, two have one symbol exactly if they spread alike. -/
theorem ofName_eq_iff {x y : Text} (hx : Unmistakable x) (hy : Unmistakable y) :
    ofName x = ofName y ↔ spreadName x = spreadName y := by
  rw [ofName_eq, ofName_eq, String.ofList_inj, List.append_cancel_left_eq]
  constructor
  · intro h
    have hread := congrArg read h
    rwa [read_flatMap_piece hx.1 hx.2, read_flatMap_piece hy.1 hy.2] at hread
  · intro h
    have hpieces : ∀ name : Text, name.points.flatMap piece = (spreadName name).flatMap pointPiece := by
      intro name
      rw [spreadName, List.flatMap_assoc]
      congr 1
      funext c
      rw [flatMap_pointPiece_spread]
    rw [hpieces x, hpieces y, h]

/-! ## Names of 16 bits -/

/-- All code points have 16 bits. -/
def IsBasic (name : Text) : Prop :=
  ∀ c ∈ name.points, c.toNat ≤ 0xFFFF

instance (name : Text) : Decidable (IsBasic name) :=
  List.decidableBAll _ _

theorem spreadName_eq_map {name : Text} (h : IsBasic name) : spreadName name = name.points.map CodePoint.toNat := by
  rw [spreadName, List.map_eq_flatMap]
  apply List.flatMap_congr
  intro c hc
  exact if_pos (h c hc)

/-- Such names spread alike only if they are the same. -/
theorem spreadName_inj {x y : Text} (hx : IsBasic x) (hy : IsBasic y) (h : spreadName x = spreadName y) : x = y := by
  rw [spreadName_eq_map hx, spreadName_eq_map hy] at h
  apply Text.points_injective
  exact List.map_injective_iff.2 (fun _ _ he => CodePoint.toNat_injective he) h

theorem ofName_inj {x y : Text} (hx : Unmistakable x) (hy : Unmistakable y) (hx' : IsBasic x) (hy' : IsBasic y)
    (h : ofName x = ofName y) : x = y :=
  spreadName_inj hx' hy' ((ofName_eq_iff hx hy).1 h)

/-- A symbol is counted as often as its name if no other name has it. -/
theorem count_ofName {names : List Text} {name : Text} (h : ∀ n ∈ names, ofName n = ofName name → n = name) :
    count names (ofName name) = names.count name := by
  rw [count, List.count_eq_countP, List.countP_map, List.count_eq_countP]
  apply List.countP_congr
  intro n hn
  simp only [Function.comp_apply, beq_iff_eq]
  constructor
  · exact h n hn
  · rintro rfl
    rfl

/-- If distinct names have distinct symbols, the shared symbols are those of the names that occur repeatedly. -/
theorem mem_shared_iff_count {names : List Text}
    (h : ∀ m ∈ names, ∀ n ∈ names, ofName m = ofName n → m = n) (symbol : String) :
    symbol ∈ shared names ↔ ∃ n, ofName n = symbol ∧ 1 < names.count n := by
  rw [shared, List.mem_filter, List.mem_eraseDups, decide_eq_true_iff]
  constructor
  · rintro ⟨hmem, hcount⟩
    obtain ⟨n, hn, rfl⟩ := List.mem_map.1 hmem
    rw [count_ofName fun m hm => h m hm n hn] at hcount
    exact ⟨n, rfl, hcount⟩
  · rintro ⟨n, rfl, hcount⟩
    have hn : n ∈ names := List.count_pos_iff.1 (by omega)
    rw [count_ofName fun m hm => h m hm n hn]
    exact ⟨List.mem_map_of_mem hn, hcount⟩

/-- Which names meet in one symbol: of those without a zero or a one behind a dot, two that spread alike. Two
of 16 bits never do, so among them only a name that occurs repeatedly has a symbol that is shared. -/
theorem symbols_meet_iff :
    (∀ x y, Unmistakable x → Unmistakable y → (ofName x = ofName y ↔ spreadName x = spreadName y)) ∧
    (∀ x y, Unmistakable x → Unmistakable y → IsBasic x → IsBasic y → ofName x = ofName y → x = y) ∧
    ∀ names : List Text, (∀ n ∈ names, Unmistakable n ∧ IsBasic n) → ∀ symbol,
      symbol ∈ shared names ↔ ∃ n, ofName n = symbol ∧ 1 < names.count n := by
  refine ⟨fun x y hx hy => ofName_eq_iff hx hy, fun x y hx hy hx' hy' => ofName_inj hx hy hx' hy', ?_⟩
  intro names hnames
  apply mem_shared_iff_count
  intro m hm n hn
  exact ofName_inj (hnames m hm).1 (hnames n hn).1 (hnames m hm).2 (hnames n hn).2

/-- The five digits of U+10400 are those of U+1040 and a zero; in 16 bits no other name is taken for one. -/
theorem symbols_meet_beyond :
    ofName "a.b𐐀" = ofName "a.b၀0" ∧ "a.b𐐀" ≠ "a.b၀0" ∧
    ofName "a.b၁0" ≠ ofName "a.b၀0" ∧
    ofName "a._b" ∈ shared ["a._b", "a_.b", "a._b"] ∧ ofName "a_.b" ∉ shared ["a._b", "a_.b", "a._b"] := by
  have hnames : ∀ n ∈ (["a._b", "a_.b", "a._b"] : List Text), Unmistakable n ∧ IsBasic n := by decide +kernel
  have hshared := symbols_meet_iff.2.2 _ hnames
  refine ⟨?_, by decide, ?_, (hshared _).2 ⟨"a._b", rfl, by decide⟩, ?_⟩
  · apply (symbols_meet_iff.1 _ _ (by decide +kernel) (by decide +kernel)).2
    decide +kernel
  · intro h
    have hsame := symbols_meet_iff.2.1 _ _ (by decide +kernel) (by decide +kernel) (by decide +kernel)
      (by decide +kernel) h
    exact absurd hsame (by decide)
  · intro h
    obtain ⟨n, hn, hcount⟩ := (hshared _).1 h
    obtain ⟨hn₁, hn₂⟩ := hnames n (List.count_pos_iff.1 (by omega))
    have hsame := symbols_meet_iff.2.1 n "a_.b" hn₁ (by decide +kernel) hn₂ (by decide +kernel) hn
    rw [hsame] at hcount
    exact absurd hcount (by decide)

end JniSignatures.Symbol
