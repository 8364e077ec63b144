import JniSignatures.Text.Character
import JniSignatures.Text.CodePoint
import JniSignatures.Text.Printable
/-!
# Texts in messages

Messages show a text between quotes, so that blanks and controls in it are visible. The quotes are
single unless the text holds single quotes and no double ones. The quote in use, the backslash and
the three usual controls have short escapes; what else is not printable is written in hexadecimal.

Messages name a place in a text by line and column, both counted from one. A text may end its lines
with a line feed, a carriage return or both together. Reading turns each of these into one line feed,
so that places do not depend on the convention of the file.
-/

namespace JniSignatures.Text

/-! ## Quotes -/

def singleQuote : Char := '\x27'

def doubleQuote : Char := '\x22'

/-- The quote that spares the most escapes. -/
def quoteFor (points : List CodePoint) : Char :=
  if points.contains singleQuote && !points.contains doubleQuote then doubleQuote else singleQuote

/-- One code point between quotes of the given kind. -/
def quotedPoint (quote : Char) (c : CodePoint) : List Char :=
  if c = quote then ['\\', quote]
  else if c = '\\' then ['\\', '\\']
  else if c = '\n' then ['\\', 'n']
  else if c = '\r' then ['\\', 'r']
  else if c = '\t' then ['\\', 't']
  else if isPrintable c.toNat then [Char.ofNat c.toNat]
  else if c.toNat < 0x100 then '\\' :: 'x' :: hex 2 c.toNat
  else if c.toNat < 0x10000 then '\\' :: 'u' :: hex 4 c.toNat
  else '\\' :: 'U' :: hex 8 c.toNat

/-- The text between quotes. -/
def quoted (t : Text) : String :=
  let quote := quoteFor t.points
  String.ofList (quote :: t.points.flatMap (quotedPoint quote) ++ [quote])

/-! ## Line ends and places -/

/-- The text with every line end written as one line feed. -/
def unifyNewlines : List Char → List Char
  | [] => []
  | '\r' :: '\n' :: cs => '\n' :: unifyNewlines cs
  | '\r' :: cs => '\n' :: unifyNewlines cs
  | c :: cs => c :: unifyNewlines cs

/-- The last line of a text. Line feeds at the end of the text end that line. -/
def lastLine (text : List Char) : List Char :=
  ((text.reverse.dropWhile (· == '\n')).takeWhile (· != '\n')).reverse

/-- A place in a text: the code points before it, and its line and column. -/
structure Place where
  offset : Nat
  line : Nat
  column : Nat
  deriving DecidableEq

/-- The place of the code point at `offset`. -/
def placeAt (text : List Char) (offset : Nat) : Place :=
  let before := text.take offset
  { offset
    line := before.count '\n' + 1
    column := (before.reverse.takeWhile (· != '\n')).length + 1 }

def Place.message (p : Place) : String :=
  "line " ++ toString p.line ++ " column " ++ toString p.column ++ " (char " ++ toString p.offset ++ ")"

end JniSignatures.Text
