/-!
# Records in the compact wire form

The footer of a table is a record in a compact wire form: fields with a number and a type, integers in
groups of seven bits, lists with their length in front. `readRecord` reads a record of a known shape.
A field that the shape does not have, or has with another type, is skipped; a field that the shape
requires must be there. Lengths and depth are bounded, so that a hostile file does no harm.
-/

namespace JniSignatures.Columnar

/-- Why bytes are no record. -/
inductive CompactFault where
  | endOfData
  | invalid
  | invalidType
  | negativeSize
  | sizeLimit
  | depthLimit
  | longInteger
  | unknownType (code : Nat)
  deriving DecidableEq

def CompactFault.message : CompactFault → String
  | .endOfData => "No more data to read."
  | .invalid => "TProtocolException: Invalid data"
  | .invalidType => "invalid TType"
  | .negativeSize => "TProtocolException: Negative size"
  | .sizeLimit => "TProtocolException: Exceeded size limit"
  | .depthLimit => "TProtocolException: Exceeded depth limit"
  | .longInteger => "Variable-length int over 10 bytes."
  | .unknownType code => "don't know what type: " ++ String.ofList [Char.ofNat code]

/-! ## Values -/

/-- A value that has been read. The fields of a record stand under their numbers. -/
inductive Item where
  | truth (value : Bool)
  | integer (value : Int)
  | bytes (data : List UInt8)
  | list (items : List Item)
  | record (fields : List (Nat × Item))

/-- The fields of a record, the last one first. -/
abbrev Record := List (Nat × Item)

namespace Record

def integer? (record : Record) (number : Nat) : Option Int :=
  match record.lookup number with
  | some (.integer value) => some value
  | _ => none

/-- The integer of a field, zero if there is none. -/
def integer (record : Record) (number : Nat) : Int :=
  (record.integer? number).getD 0

/-- Whether the truth value of a field is there and true. -/
def isTrue (record : Record) (number : Nat) : Bool :=
  match record.lookup number with
  | some (.truth value) => value
  | _ => false

/-- The bytes of a field, none if the field is not there. -/
def bytes (record : Record) (number : Nat) : List UInt8 :=
  match record.lookup number with
  | some (.bytes data) => data
  | _ => []

def record? (record : Record) (number : Nat) : Option Record :=
  match record.lookup number with
  | some (.record fields) => some fields
  | _ => none

/-- The records of a list, if the list is there. -/
def records? (record : Record) (number : Nat) : Option (List Record) :=
  match record.lookup number with
  | some (.list items) => some (items.filterMap fun item => match item with
      | .record fields => some fields
      | _ => none)
  | _ => none

end Record

/-- A reader of bytes; its state is the bytes that are left. -/
abbrev Scan := StateT (List UInt8) (Except CompactFault)

namespace Compact

/-- The type of a value. -/
inductive Wire where
  | stop | bool | byte | i16 | i32 | i64 | double | binary | list | set | map | record | uuid
  deriving DecidableEq

/-- The type of a code. Two codes are the two truth values. -/
def wireOf (code : Nat) : Scan Wire :=
  match code with
  | 0 => return .stop
  | 1 | 2 => return .bool
  | 3 => return .byte
  | 4 => return .i16
  | 5 => return .i32
  | 6 => return .i64
  | 7 => return .double
  | 8 => return .binary
  | 9 => return .list
  | 10 => return .set
  | 11 => return .map
  | 12 => return .record
  | 13 => return .uuid
  | _ => throw (.unknownType code)

/-! ## Bytes and numbers -/

/-- The next byte. -/
def byte : Scan Nat := fun data =>
  match data with
  | [] => .error .endOfData
  | b :: rest => .ok (b.toNat, rest)

/-- The next bytes. -/
def take (n : Nat) : Scan (List UInt8) := fun data =>
  let front := data.take n
  if front.length < n then .error .endOfData else .ok (front, data.drop n)

/-- An integer of at most `room` bytes, the low groups first. -/
def integerWithin : (room : Nat) → Scan Nat
  | 0 => throw .longInteger
  | room + 1 => do
    let b ← byte
    if b < 128 then return b else return b - 128 + 128 * (← integerWithin room)

/-- The low 64 bits of an integer. -/
def longWord : Scan Nat := return (← integerWithin 10) % 18446744073709551616

/-- The low 32 bits of an integer. -/
def word : Scan Nat := return (← integerWithin 10) % 4294967296

/-- The integer that is kept with its sign in the lowest bit. -/
def signed (n : Nat) : Int :=
  if n % 2 = 0 then ↑(n / 2) else -↑(n / 2) - 1

/-- The length of something, which must not be beyond a limit. -/
def checkSize (limit n : Nat) : Scan Nat :=
  if 2147483648 ≤ n then throw .negativeSize
  else if limit < n then throw .sizeLimit
  else return n

def binaryLimit : Nat := 100000000

def itemLimit : Nat := 1000000

/-- Bytes with their length in front. -/
def binary : Scan (List UInt8) := do take (← checkSize binaryLimit (← word))

/-- The type and the number of the items of a list. -/
def listHeader : Scan (Wire × Nat) := do
  let b ← byte
  let n ← if b / 16 = 15 then word else pure (b / 16)
  let n ← checkSize itemLimit n
  return (← wireOf (b % 16), n)

/-- The types of the keys and of the values of a map, and their number. -/
def mapHeader : Scan (Wire × Wire × Nat) := do
  let n ← word
  let b ← if n = 0 then pure 0 else byte
  let n ← checkSize itemLimit n
  return (← wireOf (b / 16), ← wireOf (b % 16), n)

/-- What stands before the value of a field: its number, its type, and the truth value, which is the
value of a field that holds one. -/
structure Header where
  number : Nat
  wire : Wire
  truth : Bool

/-- The header of the next field, or nothing at the end of the record. The number is kept modulo
`65536` and is mostly told by its distance from the one before. -/
def fieldHeader (last : Nat) : Scan (Option Header) := do
  let b ← byte
  if b % 16 = 0 then return none
  let number ←
    if b / 16 = 0 then pure ((signed (← word)) % 65536).toNat
    else pure ((last + b / 16) % 65536)
  return some ⟨number, ← wireOf (b % 16), b % 16 = 1⟩

/-! ## Going through values -/

/-- Does something a number of times. -/
def times {α : Type} (n : Nat) (action : Scan α) : Scan (List α) :=
  match n with
  | 0 => return []
  | n + 1 => return (← action) :: (← times n action)

/-- Goes through the fields of a record; there are fewer of them than `fuel`. -/
def foldFields {α : Type} (step : α → Header → Scan α) : (fuel last : Nat) → α → Scan α
  | 0, _, _ => throw .endOfData
  | fuel + 1, last, value => do
    match ← fieldHeader last with
    | none => return value
    | some header => foldFields step fuel header.number (← step value header)

/-- Goes through the fields of a record, each of which takes a byte at least. -/
def eachField {α : Type} (initial : α) (step : α → Header → Scan α) : Scan α := do
  foldFields step ((← get).length + 1) 0 initial

/-- Reads a value that has no parts. -/
def plain : Wire → Scan Item
  | .bool => return .truth ((← byte) = 1)
  | .byte => do
    let b ← byte
    return .integer (if b < 128 then b else b - 256)
  | .i16 => return .integer (Int.bmod (signed (← word)) 65536)
  | .i32 => return .integer (signed (← word))
  | .i64 => return .integer (signed (← longWord))
  | .double => return .bytes (← take 8)
  | .uuid => return .bytes (← take 16)
  | .binary => return .bytes (← binary)
  | _ => throw .invalidType

/-- Passes over a value; what is nested in it may be nested `depth` deep. A truth value is told by the
type of its field. -/
def skip (depth : Nat) (inField : Bool) (wire : Wire) : Scan Unit :=
  match depth with
  | 0 => throw .depthLimit
  | depth + 1 =>
    match wire with
    | .bool => if inField then return () else do let _ ← byte
    | .list | .set => do
      let (item, n) ← listHeader
      let _ ← times n (skip depth false item)
    | .map => do
      let (key, value, n) ← mapHeader
      let _ ← times n do
        skip depth false key
        skip depth false value
    | .record => eachField () fun _ header => skip depth true header.wire
    | wire => do let _ ← plain wire

end Compact

/-! ## Shapes -/

/-- What a field of a record holds: a value without parts, a record, or a list of either. A record is
given by its fields, each with its number and whether it is required. -/
inductive Shape where
  | plain (wire : Compact.Wire)
  | plains (wire : Compact.Wire)
  | record (fields : List (Nat × Bool × Shape))
  | records (fields : List (Nat × Bool × Shape))

/-- The fields of a record. -/
abbrev Fields := List (Nat × Bool × Shape)

namespace Shape

/-- The type of a field of the shape. -/
def wire : Shape → Compact.Wire
  | .plain wire => wire
  | .record _ => .record
  | .plains _ | .records _ => .list

end Shape

namespace Compact

/-- Whether the fields that are required are there. -/
def isComplete (fields : Fields) (record : Record) : Bool :=
  fields.all fun (number, required, _) => !required || (record.lookup number).isSome

/-- Reads a record, in which `depth` records may be nested. -/
def readRecord (depth : Nat) (fields : Fields) : Scan Record :=
  match depth with
  | 0 => throw .depthLimit
  | depth + 1 => do
    let record ← eachField [] fun record header => do
      match fields.lookup header.number with
      | none =>
        skip depth true header.wire
        return record
      | some (_, shape) =>
        if shape.wire ≠ header.wire then
          skip depth true header.wire
          return record
        let item ← match shape with
          | .plain .bool => pure (Item.truth header.truth)
          | .plain wire => plain wire
          | .plains wire => do
            let (_, n) ← listHeader
            Item.list <$> times n (plain wire)
          | .record inner => Item.record <$> readRecord depth inner
          | .records inner => do
            let (_, n) ← listHeader
            Item.list <$> times n (Item.record <$> readRecord depth inner)
        return (header.number, item) :: record
    if isComplete fields record then return record else throw .invalid

end Compact

end JniSignatures.Columnar
