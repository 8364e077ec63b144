import Mathlib
import JniSignatures.Text.CodePoint
/-!
# Strings among the texts

A code point is a character unless it is a surrogate, and a text is a string unless there is a surrogate
in it. `string?_eq_some_iff` says that at most one string is a given text, `isSome_string?_iff` which
texts are strings.
-/

namespace JniSignatures

namespace CodePoint

theorem toNat_injective {a b : CodePoint} (h : a.toNat = b.toNat) : a = b := by
  obtain ⟨a, _⟩ := a
  obtain ⟨b, _⟩ := b
  cases h
  rfl

@[simp]
theorem toNat_ofChar (c : Char) : (ofChar c).toNat = c.toNat := rfl

theorem toNat_ofNat {n : Nat} (h : n < 0x110000) : (ofNat n).toNat = n := by
  rw [ofNat, dif_pos h]

theorem ofNat_toNat (c : Char) : ofNat c.toNat = c :=
  toNat_injective (toNat_ofNat (ofChar c).isLt)

theorem ofChar_injective : Function.Injective ofChar := fun _ _ h =>
  Char.toNat_inj.1 (congrArg CodePoint.toNat h)

@[simp]
theorem ofChar_inj {a b : Char} : ofChar a = ofChar b ↔ a = b :=
  ofChar_injective.eq_iff

@[simp]
theorem char?_ofChar (c : Char) : (ofChar c).char? = some c := by
  have hvalid : (ofChar c).toNat.isValidChar := c.valid
  rw [char?, if_pos hvalid, toNat_ofChar, Char.ofNat_toNat]

theorem char?_eq_some_iff {p : CodePoint} {c : Char} : p.char? = some c ↔ p = ofChar c := by
  refine ⟨fun h => ?_, fun h => by rw [h, char?_ofChar]⟩
  rw [char?] at h
  split at h
  · next hvalid =>
    cases h
    refine toNat_injective ?_
    rw [toNat_ofChar, Char.toNat_ofNat, if_pos hvalid]
  · cases h

/-- The code points that are no characters are the surrogates. -/
theorem char?_eq_none_iff {p : CodePoint} : p.char? = none ↔ 0xD800 ≤ p.toNat ∧ p.toNat ≤ 0xDFFF := by
  have hlt := p.isLt
  rw [char?]
  split
  · next hvalid =>
    refine iff_of_false (by simp) ?_
    rcases hvalid with h | h <;> omega
  · next hvalid =>
    refine iff_of_true rfl ?_
    rw [Nat.isValidChar] at hvalid
    omega

end CodePoint

namespace Text

theorem points_injective {a b : Text} (h : a.points = b.points) : a = b := by
  obtain ⟨_⟩ := a
  cases h
  rfl

@[simp]
theorem points_ofString (s : String) : (ofString s).points = s.toList.map CodePoint.ofChar := rfl

@[simp]
theorem points_append (a b : Text) : (a ++ b).points = a.points ++ b.points := rfl

theorem append_assoc (a b c : Text) : a ++ b ++ c = a ++ (b ++ c) :=
  points_injective (List.append_assoc a.points b.points c.points)

theorem append_right_inj {a b c : Text} : a ++ b = a ++ c ↔ b = c := by
  refine ⟨fun h => points_injective ?_, fun h => by rw [h]⟩
  exact (List.append_right_inj a.points).1 (congrArg points h)

@[simp]
theorem ofString_append (a b : String) : ofString (a ++ b) = ofString a ++ ofString b := by
  refine points_injective ?_
  rw [points_append, points_ofString, String.toList_append, List.map_append]
  rfl

theorem chars?_eq_some_iff {t : Text} {cs : List Char} :
    t.chars? = some cs ↔ t.points = cs.map CodePoint.ofChar := by
  obtain ⟨points⟩ := t
  simp only [chars?]
  induction points generalizing cs with
  | nil => cases cs <;> simp
  | cons p rest ih =>
    rw [List.mapM_cons]
    cases cs with
    | nil => cases hp : p.char? <;> cases hr : rest.mapM CodePoint.char? <;> simp
    | cons c cs =>
      rw [List.map_cons, List.cons.injEq, ← CodePoint.char?_eq_some_iff, ← ih]
      cases hp : p.char? <;> cases hr : rest.mapM CodePoint.char? <;> simp

theorem string?_eq_some_iff {t : Text} {s : String} : t.string? = some s ↔ t = s := by
  rw [string?, Option.map_eq_some_iff]
  constructor
  · rintro ⟨cs, hcs, rfl⟩
    refine points_injective ?_
    rw [chars?_eq_some_iff.1 hcs, points_ofString, String.toList_ofList]
  · rintro rfl
    exact ⟨s.toList, chars?_eq_some_iff.2 rfl, String.ofList_toList⟩

/-- A text that is a string. -/
def IsString (t : Text) : Prop :=
  ∃ s : String, t = s

@[simp]
theorem isString_ofString (s : String) : IsString s :=
  ⟨s, rfl⟩

@[simp]
theorem string?_ofString (s : String) : (ofString s).string? = some s :=
  string?_eq_some_iff.2 rfl

theorem ofString_injective : Function.Injective ofString := fun a b h =>
  Option.some.inj ((string?_ofString a).symm.trans ((congrArg string? h).trans (string?_ofString b)))

@[simp]
theorem ofString_inj {a b : String} : ofString a = ofString b ↔ a = b :=
  ofString_injective.eq_iff

@[simp]
theorem ofString_beq (a b : String) : (ofString a == ofString b) = (a == b) := by
  rw [Bool.eq_iff_iff, beq_iff_eq, beq_iff_eq, ofString_inj]

theorem isSome_string?_iff {t : Text} : t.string?.isSome ↔ t.IsString := by
  rw [Option.isSome_iff_exists, IsString]
  simp only [string?_eq_some_iff]

theorem isSome_chars?_iff {t : Text} : t.chars?.isSome ↔ t.IsString := by
  rw [← isSome_string?_iff, string?, Option.isSome_map]

/-- The texts that are strings are those without a surrogate. -/
theorem isString_iff {t : Text} : t.IsString ↔ ∀ p ∈ t.points, p.char?.isSome := by
  rw [← isSome_chars?_iff]
  obtain ⟨points⟩ := t
  rw [chars?]
  induction points with
  | nil => simp
  | cons p rest ih =>
    rw [List.mapM_cons, List.forall_mem_cons, ← ih]
    cases p.char? <;> cases rest.mapM CodePoint.char? <;> simp

end Text

end JniSignatures
