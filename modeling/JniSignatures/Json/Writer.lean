import JniSignatures.Json.Value
import JniSignatures.Decimal.Shortest
import JniSignatures.Text.Character
/-!
# Writing JSON documents

Documents are written in ASCII with an indentation of two blanks per level, one item or field per
line, in the order in which the value has them. Every code point but the printable ones of ASCII is
escaped, those beyond U+FFFF as a surrogate pair, and a surrogate that stands alone as itself. A value
with an integer of too many digits cannot be written.
-/

namespace JniSignatures.Json

/-- The escape of one 16-bit unit. -/
def unitEscape (unit : Nat) : List Char :=
  '\\' :: 'u' :: Text.hex 4 unit

/-- One code point of a string. -/
def writePoint (c : CodePoint) : List Char :=
  let n := c.toNat
  if c = '"' then ['\\', '"']
  else if c = '\\' then ['\\', '\\']
  else if c = '\n' then ['\\', 'n']
  else if c = '\r' then ['\\', 'r']
  else if c = '\t' then ['\\', 't']
  else if c = '\x08' then ['\\', 'b']
  else if c = '\x0c' then ['\\', 'f']
  else if 0x20 ≤ n ∧ n < 0x7F then [Char.ofNat n]
  else if n < 0x10000 then unitEscape n
  else
    let rest := n - 0x10000
    unitEscape (0xD800 + rest / 0x400) ++ unitEscape (0xDC00 + rest % 0x400)

/-- A string between its quotes. -/
def writeString (s : Text) : List Char :=
  '"' :: s.points.flatMap writePoint ++ ['"']

/-- How floating-point numbers are laid out: with a point from a ten-thousandth up to `10 ^ 16`. -/
def numberLayout : Decimal.Layout :=
  { plainFrom := -4, plainBelow := 16, exponentDigits := 2 }

def writeFloat : Decimal.Binary64 → List Char
  | .nan => "NaN".toList
  | .infinite negative => if negative then "-Infinity".toList else "Infinity".toList
  | x => (numberLayout.render x).toList

/-- A line end and the indentation of the next line. -/
def lineBreak (level : Nat) : List Char :=
  '\n' :: List.replicate (2 * level) ' '

mutual

/-- Whether a value can be written. -/
def isWritable : Json → Bool
  | .int n => (Nat.toDigits 10 n.natAbs).length ≤ maxIntDigits
  | .array items => itemsWritable items
  | .object fields => fieldsWritable fields
  | _ => true

/-- Whether all items can be written. -/
def itemsWritable : List Json → Bool
  | [] => true
  | item :: items => isWritable item && itemsWritable items

/-- Whether the values of all fields can be written. -/
def fieldsWritable : List (Text × Json) → Bool
  | [] => true
  | (_, value) :: fields => isWritable value && fieldsWritable fields

end

mutual

/-- A value whose text starts on a line of the given level. -/
def write (level : Nat) : Json → List Char
  | .null => "null".toList
  | .bool b => if b then "true".toList else "false".toList
  | .int n => (toString n).toList
  | .float x => writeFloat x
  | .string s => writeString s
  | .array [] => ['[', ']']
  | .array (item :: items) =>
    '[' :: lineBreak (level + 1) ++ write (level + 1) item ++ writeItems (level + 1) items ++
      lineBreak level ++ [']']
  | .object [] => ['\x7b', '\x7d']
  | .object ((key, value) :: fields) =>
    '\x7b' :: lineBreak (level + 1) ++ writeString key ++ ':' :: ' ' :: write (level + 1) value ++
      writeFields (level + 1) fields ++ lineBreak level ++ ['\x7d']

/-- The items after the first one. -/
def writeItems (level : Nat) : List Json → List Char
  | [] => []
  | item :: items => ',' :: lineBreak level ++ write level item ++ writeItems level items

/-- The fields after the first one. -/
def writeFields (level : Nat) : List (Text × Json) → List Char
  | [] => []
  | (key, value) :: fields =>
    ',' :: lineBreak level ++ writeString key ++ ':' :: ' ' :: write level value ++
      writeFields level fields

end

/-- A document with its final line feed. -/
def document (value : Json) : List Char :=
  write 0 value ++ ['\n']

end JniSignatures.Json
