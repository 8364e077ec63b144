import JniSignatures.Text.Character
import JniSignatures.Text.CodePoint
/-!
# UTF-8 with reasons for refusal

`Utf8.decode` reads bytes strictly: no overlong form, no surrogate, nothing beyond U+10FFFF. When it
refuses, it tells which bytes it refuses and why: a byte that starts no sequence, a sequence that is
broken off by a byte that does not continue it, or one that is cut off by the end of the input.
`Utf8.decodeReplacing` refuses nothing and puts a replacement character there instead. `Utf8.encode`
writes the shortest form. A text with a surrogate in it has no form; `Utf8.unencodable?` tells the
first surrogates of a text.
-/

namespace JniSignatures.Text.Utf8

/-- Why a run of bytes is refused. -/
inductive Reason where
  | invalidStart
  | invalidContinuation
  | unexpectedEnd
  deriving DecidableEq

/-- The refused bytes: the first of them, its offset, how many there are, and why. -/
structure Refusal where
  first : UInt8
  offset : Nat
  length : Nat
  reason : Reason
  deriving DecidableEq

def Reason.message : Reason → String
  | .invalidStart => "invalid start byte"
  | .invalidContinuation => "invalid continuation byte"
  | .unexpectedEnd => "unexpected end of data"

def Refusal.message (r : Refusal) : String :=
  let place :=
    if r.length = 1 then
      "byte 0x" ++ String.ofList (hex 2 r.first.toNat) ++ " in position " ++ toString r.offset
    else
      "bytes in position " ++ toString r.offset ++ "-" ++ toString (r.offset + r.length - 1)
  "'utf-8' codec can't decode " ++ place ++ ": " ++ r.reason.message

/-- A bound on one continuation byte. -/
structure Span where
  low : Nat
  high : Nat
  deriving DecidableEq

/-- The span of an unrestricted continuation byte. -/
def anyTail : Span := ⟨0x80, 0xBF⟩

/-- What a lead byte contributes to the code point, and the spans of the bytes that must follow it;
`none` for a byte that starts no sequence of two or more bytes. The first continuation is narrower
after the leads of overlong forms, of surrogates and of values beyond U+10FFFF. -/
def lead? (b : Nat) : Option (Nat × List Span) :=
  if b < 0xC2 then none
  else if b < 0xE0 then some (b - 0xC0, [anyTail])
  else if b = 0xE0 then some (0x0, [⟨0xA0, 0xBF⟩, anyTail])
  else if b = 0xED then some (0xD, [⟨0x80, 0x9F⟩, anyTail])
  else if b < 0xF0 then some (b - 0xE0, [anyTail, anyTail])
  else if b = 0xF0 then some (0x0, [⟨0x90, 0xBF⟩, anyTail, anyTail])
  else if b < 0xF4 then some (b - 0xF0, [anyTail, anyTail, anyTail])
  else if b = 0xF4 then some (0x4, [⟨0x80, 0x8F⟩, anyTail, anyTail])
  else none

/-- A sequence that has begun: its lead byte and offset, the bytes seen, the bits read so far, and
the spans of the bytes still awaited, the first of them apart. -/
structure Pending where
  lead : UInt8
  offset : Nat
  seen : Nat
  value : Nat
  next : Span
  later : List Span

/-- Decodes from `offset` on, with the sequence that is under way, if any. -/
def decodeFrom (offset : Nat) : Option Pending → List UInt8 → Except Refusal (List Char)
  | none, [] => .ok []
  | some p, [] => .error ⟨p.lead, p.offset, p.seen, .unexpectedEnd⟩
  | none, b :: bs =>
    if b.toNat < 0x80 then (decodeFrom (offset + 1) none bs).map (Char.ofNat b.toNat :: ·)
    else match lead? b.toNat with
      | some (value, next :: later) =>
        decodeFrom (offset + 1) (some ⟨b, offset, 1, value, next, later⟩) bs
      | _ => .error ⟨b, offset, 1, .invalidStart⟩
  | some p, b :: bs =>
    if p.next.low ≤ b.toNat ∧ b.toNat ≤ p.next.high then
      let value := p.value * 64 + (b.toNat - 0x80)
      match p.later with
      | [] => (decodeFrom (offset + 1) none bs).map (Char.ofNat value :: ·)
      | next :: later =>
        decodeFrom (offset + 1) (some { p with seen := p.seen + 1, value, next, later }) bs
    else .error ⟨p.lead, p.offset, p.seen, .invalidContinuation⟩

/-- The code points that the bytes encode, or the first bytes that encode none. -/
def decode (bytes : List UInt8) : Except Refusal (List Char) :=
  decodeFrom 0 none bytes

/-- Decodes bytes of which there are at most `fuel`, with a replacement character in the place of each
run of bytes that is refused. -/
def replaceWithin : (fuel : Nat) → List UInt8 → List Char
  | 0, _ => []
  | fuel + 1, bytes =>
    match decode bytes with
    | .ok cs => cs
    | .error refusal =>
      ((decode (bytes.take refusal.offset)).toOption.getD []) ++
        '\uFFFD' :: replaceWithin fuel (bytes.drop (refusal.offset + refusal.length))

/-- The code points that the bytes encode, with a replacement character for what encodes none. -/
def decodeReplacing (bytes : List UInt8) : List Char :=
  replaceWithin (bytes.length + 1) bytes

/-- The bytes that encode the code points. -/
def encode (cs : List Char) : List UInt8 :=
  cs.flatMap String.utf8EncodeChar

/-- The surrogates because of which a text has no bytes: the first of them, its offset, and how many
there are in a row. -/
structure Unencodable where
  first : CodePoint
  offset : Nat
  length : Nat
  deriving DecidableEq

def Unencodable.message (u : Unencodable) : String :=
  let place :=
    if u.length = 1 then
      "character '\\u" ++ String.ofList (hex 4 u.first.toNat) ++ "' in position " ++ toString u.offset
    else
      "characters in position " ++ toString u.offset ++ "-" ++ toString (u.offset + u.length - 1)
  "'utf-8' codec can't encode " ++ place ++ ": surrogates not allowed"

/-- The first surrogates of a text, if there are any. -/
def unencodable? (t : Text) : Option Unencodable :=
  match t.points.dropWhile (·.char?.isSome) with
  | [] => none
  | first :: rest =>
    some ⟨first, (t.points.takeWhile (·.char?.isSome)).length,
      (rest.takeWhile (·.char?.isNone)).length + 1⟩

end JniSignatures.Text.Utf8
