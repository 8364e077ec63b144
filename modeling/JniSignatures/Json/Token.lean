import JniSignatures.Json.Value
import JniSignatures.Text.Character
/-!
# JSON tokens

A document is cut into tokens, each with the offset of its first character. Blanks between tokens
are space, tab, line feed and carriage return. Besides the standard's literals there are `NaN`,
`Infinity` and `-Infinity`. A number is read as far as its grammar goes: a fraction or an exponent
without digits is left for the next token. Where no token can be read, the token says what is wrong,
and it is for the reader of the tokens to decide whether that is the fault to report.
-/

namespace JniSignatures.Json

open Decimal (Binary64)

/-- What can be wrong within a quoted string. -/
inductive StringFault where
  | unterminated
  | control
  | escape
  | unicodeEscape
  deriving DecidableEq

/-- A token. -/
inductive Token where
  | openBracket | closeBracket | openBrace | closeBrace | comma | colon
  | null
  | bool (value : Bool)
  | int (value : Int)
  | float (value : Binary64)
  | string (value : Text)
  /-- A string that breaks off, and the offset of the fault. -/
  | badString (fault : StringFault) (offset : Nat)
  /-- An integer literal of too many digits. -/
  | longInt (digits : Nat)
  /-- A character that starts no token. -/
  | unknown

/-- The blanks between tokens. -/
def isSpace (c : Char) : Bool :=
  c == ' ' || c == '\t' || c == '\n' || c == '\r'

/-! ## Strings -/

/-- The value of four hexadecimal digits. -/
def hexUnit? (a b c d : Char) : Option Nat := do
  let a ← Text.hexValue? a
  let b ← Text.hexValue? b
  let c ← Text.hexValue? c
  let d ← Text.hexValue? d
  return ((a * 16 + b) * 16 + c) * 16 + d

def isHighSurrogate (n : Nat) : Bool := 0xD800 ≤ n && n ≤ 0xDBFF

def isLowSurrogate (n : Nat) : Bool := 0xDC00 ≤ n && n ≤ 0xDFFF

/-- The code point of a surrogate pair. -/
def joinSurrogates (high low : Nat) : Nat :=
  0x10000 + (high - 0xD800) * 0x400 + (low - 0xDC00)

/-- The character of an escape with one letter. -/
def shortEscape? (c : Char) : Option Char :=
  match c with
  | '"' => some '"'
  | '\\' => some '\\'
  | '/' => some '/'
  | 'b' => some '\x08'
  | 'f' => some '\x0c'
  | 'n' => some '\n'
  | 'r' => some '\r'
  | 't' => some '\t'
  | _ => none

/-- The low surrogate whose escape comes next, if one does and something follows it. -/
def lowSurrogate? : List Char → Option Nat
  | '\\' :: 'u' :: a :: b :: c :: d :: _ :: _ => (hexUnit? a b c d).filter isLowSurrogate
  | _ => none

/-- Reads a string from after its opening quote at offset `start` to its closing quote; `offset` is
that of the next character. The result is the code points and the offset after the closing quote.
A unicode escape needs four digits and a further character behind them. The escapes of a surrogate
pair make one code point: the low half has been taken with the high one when `paired` is set. A
surrogate without its other half stands for itself. -/
def readString (start offset : Nat) (paired : Bool) :
    List Char → Except (StringFault × Nat) (List CodePoint × Nat)
  | [] => .error (.unterminated, start)
  | '"' :: _ => .ok ([], offset + 1)
  | '\\' :: 'u' :: a :: b :: c :: d :: next :: rest =>
    match hexUnit? a b c d with
    | none => .error (.unicodeEscape, offset + 1)
    | some unit =>
      if paired then readString start (offset + 6) false (next :: rest)
      else match (if isHighSurrogate unit then lowSurrogate? (next :: rest) else none) with
        | some low =>
          (readString start (offset + 6) true (next :: rest)).map fun (points, stop) =>
            (.ofNat (joinSurrogates unit low) :: points, stop)
        | none =>
          (readString start (offset + 6) false (next :: rest)).map fun (points, stop) =>
            (.ofNat unit :: points, stop)
  | '\\' :: 'u' :: _ => .error (.unicodeEscape, offset + 1)
  | ['\\'] => .error (.unterminated, start)
  | '\\' :: c :: rest =>
    match shortEscape? c with
    | some e =>
      (readString start (offset + 2) false rest).map fun (points, stop) => (.ofChar e :: points, stop)
    | none => .error (.escape, offset)
  | c :: rest =>
    if c.toNat < 0x20 then .error (.control, offset)
    else
      (readString start (offset + 1) false rest).map fun (points, stop) => (.ofChar c :: points, stop)

/-! ## Numbers -/

def isDigit (c : Char) : Bool := '0' ≤ c && c ≤ '9'

/-- The digits at the front of a text. -/
def digitsOf (cs : List Char) : List Char := cs.takeWhile isDigit

def natOfDigits (ds : List Char) : Nat :=
  ds.foldl (fun n d => n * 10 + (d.toNat - '0'.toNat)) 0

/-- The digits of a whole part: a lone zero, or digits that do not start with zero. -/
def wholePart : List Char → List Char
  | '0' :: _ => ['0']
  | cs => digitsOf cs

/-- The digits of a fraction, if a point and a digit come next. -/
def fractionPart : List Char → List Char
  | '.' :: cs => digitsOf cs
  | _ => []

/-- An exponent: the length of its text, and its value. -/
structure Exponent where
  length : Nat
  value : Int

/-- The exponent that comes next, if it has digits. -/
def exponentPart : List Char → Option Exponent
  | [] => none
  | mark :: cs =>
    if mark = 'e' ∨ mark = 'E' then
      let (sign, body) := match cs with
        | '+' :: rest => (['+'], rest)
        | '-' :: rest => (['-'], rest)
        | _ => ([], cs)
      match digitsOf body with
      | [] => none
      | ds =>
        let n : Int := natOfDigits ds
        some ⟨1 + sign.length + ds.length, if sign = ['-'] then -n else n⟩
    else none

/-- The unsigned number at the front of a text and the length of its text; `none` if no digit comes
first. -/
def readUnsigned (negative : Bool) (cs : List Char) : Option (Token × Nat) :=
  match wholePart cs with
  | [] => none
  | whole =>
    let rest := cs.drop whole.length
    let fraction := fractionPart rest
    let fractionLength := if fraction = [] then 0 else fraction.length + 1
    let exponent := exponentPart (rest.drop fractionLength)
    let length := whole.length + fractionLength + (exponent.map (·.length)).getD 0
    if fraction = [] ∧ exponent.isNone then
      if whole.length > maxIntDigits then some (.longInt whole.length, length)
      else
        let n : Int := natOfDigits whole
        some (.int (if negative then -n else n), length)
    else
      let power := (exponent.map (·.value)).getD 0 - fraction.length
      some (.float (.ofDecimal negative (natOfDigits (whole ++ fraction)) power), length)

/-! ## Cutting a text into tokens -/

/-- The token that starts with the first of the characters, at `offset`, and the length of its
text. -/
def readToken (offset : Nat) (cs : List Char) : Token × Nat :=
  match cs with
  | '[' :: _ => (.openBracket, 1)
  | ']' :: _ => (.closeBracket, 1)
  | '{' :: _ => (.openBrace, 1)
  | '}' :: _ => (.closeBrace, 1)
  | ',' :: _ => (.comma, 1)
  | ':' :: _ => (.colon, 1)
  | '"' :: rest =>
    match readString offset (offset + 1) false rest with
    | .ok (points, stop) => (.string ⟨points⟩, stop - offset)
    | .error (fault, place) => (.badString fault place, 1)
  | 'n' :: 'u' :: 'l' :: 'l' :: _ => (.null, 4)
  | 't' :: 'r' :: 'u' :: 'e' :: _ => (.bool true, 4)
  | 'f' :: 'a' :: 'l' :: 's' :: 'e' :: _ => (.bool false, 5)
  | 'N' :: 'a' :: 'N' :: _ => (.float .nan, 3)
  | 'I' :: 'n' :: 'f' :: 'i' :: 'n' :: 'i' :: 't' :: 'y' :: _ => (.float (.infinite false), 8)
  | '-' :: 'I' :: 'n' :: 'f' :: 'i' :: 'n' :: 'i' :: 't' :: 'y' :: _ => (.float (.infinite true), 9)
  | '-' :: rest =>
    match readUnsigned true rest with
    | some (token, length) => (token, length + 1)
    | none => (.unknown, 1)
  | _ => (readUnsigned false cs).getD (.unknown, 1)

/-- The tokens of a text from `offset` on, the next `skip` characters being part of the token before.
Each comes with the offset where it starts. -/
def tokensFrom (offset : Nat) : (skip : Nat) → List Char → List (Nat × Token)
  | _, [] => []
  | skip + 1, _ :: cs => tokensFrom (offset + 1) skip cs
  | 0, c :: cs =>
    if isSpace c then tokensFrom (offset + 1) 0 cs
    else
      let (token, length) := readToken offset (c :: cs)
      (offset, token) :: tokensFrom (offset + 1) (length - 1) cs

/-- The tokens of a text, with their offsets. -/
def tokens (text : List Char) : List (Nat × Token) :=
  tokensFrom 0 0 text

end JniSignatures.Json
