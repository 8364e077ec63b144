/-!
# Classes of characters

Hexadecimal digits; the blanks, which trimming removes at both ends of a text and nowhere else; lower
case; and the decimal digits of all scripts.

The blanks are the code points that Unicode counts as white space, together with the four information
separators. The code points with the Unicode property "decimal digit" come in runs of ten, from zero to
nine; `digitZeros` lists the zeros of these runs, for version 14 of the standard.

Option values are compared with ASCII words after lowering. Outside ASCII exactly one code point has a
single ASCII letter as its lower case: the Kelvin sign, which lowers to `k`. Every other code point
beyond ASCII lowers to something that no ASCII word contains, so it may stay as it is.
-/

namespace JniSignatures.Text

/-! ## Hexadecimal digits -/

/-- The lowercase hexadecimal digits of `n`, with zeros in front up to `width` digits. -/
def hex (width n : Nat) : List Char :=
  (Nat.toDigits 16 n).leftpad width '0'

/-- The value of a hexadecimal digit of either case. -/
def hexValue? (c : Char) : Option Nat :=
  let n := c.toNat
  if 0x30 ≤ n ∧ n ≤ 0x39 then some (n - 0x30)
  else if 0x61 ≤ n ∧ n ≤ 0x66 then some (n - 0x61 + 10)
  else if 0x41 ≤ n ∧ n ≤ 0x46 then some (n - 0x41 + 10)
  else none

/-! ## Blanks -/

/-- Whether `c` is white space or an information separator. -/
def isBlank (c : Char) : Bool :=
  let n := c.toNat
  (0x09 ≤ n && n ≤ 0x0D) || (0x1C ≤ n && n ≤ 0x20) || n == 0x85 || n == 0xA0 || n == 0x1680 ||
  (0x2000 ≤ n && n ≤ 0x200A) || n == 0x2028 || n == 0x2029 || n == 0x202F || n == 0x205F ||
  n == 0x3000

/-- The text without the blanks at its two ends. -/
def trim (s : String) : String :=
  String.ofList ((s.toList.dropWhile isBlank).reverse.dropWhile isBlank).reverse

/-! ## Lower case -/

/-- The Kelvin sign. -/
def kelvinSign : Char := '\u212a'

/-- The lower case of `c`, as far as an ASCII word can tell. -/
def lowerChar (c : Char) : Char :=
  if c = kelvinSign then 'k' else c.toLower

/-- The text in lower case, as far as an ASCII word can tell. -/
def lower (s : String) : String :=
  String.ofList (s.toList.map lowerChar)

/-! ## Decimal digits -/

/-- The zeros of the scripts that have decimal digits, in ascending order. -/
def digitZeros : List Nat :=
  [
    0x30, 0x660, 0x6F0, 0x7C0, 0x966, 0x9E6, 0xA66, 0xAE6, 0xB66, 0xBE6,
    0xC66, 0xCE6, 0xD66, 0xDE6, 0xE50, 0xED0, 0xF20, 0x1040, 0x1090, 0x17E0,
    0x1810, 0x1946, 0x19D0, 0x1A80, 0x1A90, 0x1B50, 0x1BB0, 0x1C40, 0x1C50, 0xA620,
    0xA8D0, 0xA900, 0xA9D0, 0xA9F0, 0xAA50, 0xABF0, 0xFF10, 0x104A0, 0x10D30, 0x11066,
    0x110F0, 0x11136, 0x111D0, 0x112F0, 0x11450, 0x114D0, 0x11650, 0x116C0, 0x11730, 0x118E0,
    0x11950, 0x11C50, 0x11D50, 0x11DA0, 0x16A60, 0x16AC0, 0x16B50, 0x1D7CE, 0x1D7D8, 0x1D7E2,
    0x1D7EC, 0x1D7F6, 0x1E140, 0x1E2F0, 0x1E950, 0x1FBF0]

/-- Whether the code point is a decimal digit of any script. -/
def isDecimalDigit (c : Char) : Bool :=
  digitZeros.any fun first => first ≤ c.toNat && c.toNat ≤ first + 9

end JniSignatures.Text
