/-!
# Texts

A text that comes from a document is a sequence of code points. Documents can write surrogates one by
one, so there may be some that stand alone and are no characters. A text without surrogates is a
string; one with a surrogate is none, and no bytes stand for it in UTF-8.
-/

namespace JniSignatures

/-- A code point. -/
structure CodePoint where
  toNat : Nat
  isLt : toNat < 0x110000
  deriving DecidableEq

namespace CodePoint

/-- The code point of a number, or zero if it is too large for one. -/
def ofNat (n : Nat) : CodePoint :=
  if h : n < 0x110000 then ⟨n, h⟩ else ⟨0, by decide⟩

/-- The code point of a character. -/
def ofChar (c : Char) : CodePoint :=
  ⟨c.toNat, c.valid.elim (fun h => Nat.lt_trans h (by decide)) (·.2)⟩

instance : Coe Char CodePoint := ⟨ofChar⟩

/-- The character of a code point, unless that is a surrogate. -/
def char? (c : CodePoint) : Option Char :=
  if c.toNat.isValidChar then some (Char.ofNat c.toNat) else none

end CodePoint

/-- A text. -/
structure Text where
  points : List CodePoint
  deriving DecidableEq

namespace Text

def ofString (s : String) : Text :=
  ⟨s.toList.map CodePoint.ofChar⟩

instance : Coe String Text := ⟨ofString⟩

instance : Append Text := ⟨fun a b => ⟨a.points ++ b.points⟩⟩

/-- The characters of a text, unless there is a surrogate in it. -/
def chars? (t : Text) : Option (List Char) :=
  t.points.mapM CodePoint.char?

/-- The string that a text is, if it is one. -/
def string? (t : Text) : Option String :=
  t.chars?.map String.ofList

def isEmpty (t : Text) : Bool :=
  t.points.isEmpty

end Text

end JniSignatures
