import JniSignatures.Columnar.Form
import JniSignatures.Columnar.Schema
/-!
# The footer of a table

The byte form of a table ends with a record that describes it, the size of that record and a mark;
another mark stands for a record that is encrypted. The record tells the schema of the table, and its
groups of rows with the places of their columns in the file. `Footer.ofBytes` reads the record, and
`Footer.rowCount` tells the number of rows of a table without values, for which the record is enough.
The values of other tables are not read: such a table is refused.
-/

namespace JniSignatures.Columnar

/-- Why the content of a file is no table. -/
inductive ContentFault where
  | empty
  | tooShort (size : Nat)
  | noMark
  /-- The footer claims more bytes than the file has. -/
  | footerTooLong (size claimed : Nat)
  | encrypted
  | footer (fault : CompactFault)
  | schema (fault : SchemaFault)
  deriving DecidableEq

def ContentFault.message : ContentFault → String
  | .empty => "Parquet file size is 0 bytes"
  | .tooShort size =>
    "Parquet file size is " ++ toString size ++ " bytes, smaller than the minimum file footer (8 bytes)"
  | .noMark =>
    "Parquet magic bytes not found in footer. Either the file is corrupted or this is not a parquet file."
  | .footerTooLong size claimed =>
    "Parquet file size is " ++ toString size ++
      " bytes, smaller than the size reported by footer's (" ++ toString claimed ++ "bytes)"
  | .encrypted => "Could not read encrypted metadata, no decryption found in reader's properties"
  | .footer fault => "Couldn't deserialize thrift: " ++ fault.message ++ "\n"
  | .schema fault => fault.message

def ContentFault.kind : ContentFault → Kind
  | .empty | .tooShort _ | .noMark | .footerTooLong _ _ => .table
  | .encrypted | .footer _ | .schema _ => .system

/-- The mark at the end of a table whose footer is encrypted. -/
def encryptedMark : List UInt8 := [0x50, 0x41, 0x52, 0x45]

/-! ## The record that describes a table -/

namespace Shapes

/-- A field that must be there. -/
def must (number : Nat) (shape : Shape) : Nat × Bool × Shape := (number, true, shape)

/-- A field that may be there. -/
def may (number : Nat) (shape : Shape) : Nat × Bool × Shape := (number, false, shape)

def keyValue : Fields :=
  [must 1 (.plain .binary), may 2 (.plain .binary)]

def timeUnit : Fields :=
  [may 1 (.record []), may 2 (.record []), may 3 (.record [])]

def time : Fields :=
  [must 1 (.plain .bool), must 2 (.record timeUnit)]

def logicalType : Fields :=
  [may 1 (.record []), may 2 (.record []), may 3 (.record []), may 4 (.record []),
    may 5 (.record [must 1 (.plain .i32), must 2 (.plain .i32)]), may 6 (.record []),
    may 7 (.record time), may 8 (.record time),
    may 10 (.record [must 1 (.plain .byte), must 2 (.plain .bool)]), may 11 (.record []),
    may 12 (.record []), may 13 (.record []), may 14 (.record []), may 15 (.record []),
    may 16 (.record [may 1 (.plain .byte)]), may 17 (.record [may 1 (.plain .binary)]),
    may 18 (.record [may 1 (.plain .binary), may 2 (.plain .i32)])]

def schemaElement : Fields :=
  [may 1 (.plain .i32), may 2 (.plain .i32), may 3 (.plain .i32), must 4 (.plain .binary),
    may 5 (.plain .i32), may 6 (.plain .i32), may 7 (.plain .i32), may 8 (.plain .i32),
    may 9 (.plain .i32), may 10 (.record logicalType)]

def statistics : Fields :=
  [may 1 (.plain .binary), may 2 (.plain .binary), may 3 (.plain .i64), may 4 (.plain .i64),
    may 5 (.plain .binary), may 6 (.plain .binary), may 7 (.plain .bool), may 8 (.plain .bool)]

def pageEncodings : Fields :=
  [must 1 (.plain .i32), must 2 (.plain .i32), must 3 (.plain .i32)]

def sizeStatistics : Fields :=
  [may 1 (.plain .i64), may 2 (.plains .i64), may 3 (.plains .i64)]

def column : Fields :=
  [must 1 (.plain .i32), must 2 (.plains .i32), must 3 (.plains .binary), must 4 (.plain .i32),
    must 5 (.plain .i64), must 6 (.plain .i64), must 7 (.plain .i64), may 8 (.records keyValue),
    must 9 (.plain .i64), may 10 (.plain .i64), may 11 (.plain .i64), may 12 (.record statistics),
    may 13 (.records pageEncodings), may 14 (.plain .i64), may 15 (.plain .i32),
    may 16 (.record sizeStatistics)]

def columnKey : Fields :=
  [may 1 (.record []), may 2 (.record [must 1 (.plains .binary), may 2 (.plain .binary)])]

def columnChunk : Fields :=
  [may 1 (.plain .binary), must 2 (.plain .i64), may 3 (.record column), may 4 (.plain .i64),
    may 5 (.plain .i32), may 6 (.plain .i64), may 7 (.plain .i32), may 8 (.record columnKey),
    may 9 (.plain .binary)]

def sorting : Fields :=
  [must 1 (.plain .i32), must 2 (.plain .bool), must 3 (.plain .bool)]

def rowGroup : Fields :=
  [must 1 (.records columnChunk), must 2 (.plain .i64), must 3 (.plain .i64),
    may 4 (.records sorting), may 5 (.plain .i64), may 6 (.plain .i64), may 7 (.plain .i16)]

def cipher : Fields :=
  [may 1 (.plain .binary), may 2 (.plain .binary), may 3 (.plain .bool)]

def file : Fields :=
  [must 1 (.plain .i32), must 2 (.records schemaElement), must 3 (.plain .i64),
    must 4 (.records rowGroup), may 5 (.records keyValue), may 6 (.plain .binary),
    may 7 (.records [may 1 (.record [])]), may 8 (.record [may 1 (.record cipher), may 2 (.record cipher)]),
    may 9 (.plain .binary)]

end Shapes

/-- How deep the records of a footer may be nested, the footer itself included. -/
def depthLimit : Nat := 64

/-! ## Schema and groups of rows -/

/-- The element of a schema that a record stands for. -/
def Element.ofRecord (record : Record) : Element :=
  { name := record.bytes 4
    type? := record.integer? 1
    length := record.integer 2
    repetition := record.integer 3
    children := record.integer 5
    oldMeaning? := record.integer? 6
    scale := record.integer 7
    precision := record.integer 8
    meaning? := record.record? 10 }

/-- The place of a column of a group of rows. -/
structure Chunk where
  /-- Where the pages with values start. -/
  pages : Int
  /-- Where the page with the distinct values starts, if that is in front. -/
  distinct? : Option Int
  length : Int

namespace Chunk

def ofRecord (record : Record) : Chunk :=
  let column := (record.record? 3).getD []
  { pages := column.integer 9, distinct? := column.integer? 11, length := column.integer 7 }

/-- Where the column starts. -/
def start (chunk : Chunk) : Int :=
  match chunk.distinct? with
  | some distinct => if 0 < distinct ∧ distinct < chunk.pages then distinct else chunk.pages
  | none => chunk.pages

/-- Whether the column lies in a file of so many bytes. -/
def isWithin (chunk : Chunk) (size : Nat) : Bool :=
  0 ≤ chunk.start && 0 ≤ chunk.length && chunk.start + chunk.length ≤ size

end Chunk

/-- A group of rows. -/
structure RowGroup where
  rows : Int
  chunks : List Chunk

def RowGroup.ofRecord (record : Record) : RowGroup :=
  { rows := record.integer 3, chunks := ((record.records? 1).getD []).map Chunk.ofRecord }

/-- What describes a table. -/
structure Footer where
  schema : Schema
  groups : List RowGroup

namespace Footer

/-- The footer that a record stands for. If the orders of the columns are told, they are so for every
column. -/
def ofRecord (record : Record) : Except SchemaFault Footer := do
  let schema ← Schema.ofElements (((record.records? 2).getD []).map Element.ofRecord)
  match record.records? 7 with
  | some orders => if orders.length ≠ schema.leaves then .error .orders
  | none => pure ()
  return ⟨schema, ((record.records? 4).getD []).map RowGroup.ofRecord⟩

/-- The footer at the end of bytes. -/
def ofBytes (data : List UInt8) : Except ContentFault Footer :=
  let size := data.length
  let last := data.drop (size - 4)
  let claimed := (data.drop (size - 8)).take 4 |>.foldr (fun b n => n * 256 + b.toNat) 0
  if size = 0 then .error .empty
  else if size < 8 then .error (.tooShort size)
  else if last ≠ mark ∧ last ≠ encryptedMark then .error .noMark
  else if size < claimed + 8 then .error (.footerTooLong size claimed)
  else if last = encryptedMark then .error .encrypted
  else match (Compact.readRecord depthLimit Shapes.file).run ((data.drop (size - 8 - claimed)).take claimed) with
    | .error fault => .error (.footer fault)
    | .ok (record, _) => (ofRecord record).mapError .schema

end Footer

/-! ## Rows -/

/-- Why the rows of a table cannot be had though its footer can. -/
inductive RowFault where
  | column (fault : ColumnFault)
  /-- A group of rows has fewer columns than the schema. -/
  | fewColumns (count : Nat)
  /-- A column lies outside the file. -/
  | outside
  /-- There are values. -/
  | values
  deriving DecidableEq

def RowFault.message : RowFault → String
  | .column fault => fault.message
  | .fewColumns count =>
    "The file only has " ++ toString count ++ " columns, requested metadata for column: " ++
      toString count
  | .outside => "Invalid column metadata (corrupt file?)"
  | .values => "The values of columns are not read"

def RowFault.kind : RowFault → Kind
  | .column fault => fault.kind
  | .fewColumns _ | .outside => .system
  | .values => .other "NotImplementedError" (by decide)

/-- Checks the columns of a group of rows. -/
def RowGroup.check (group : RowGroup) (leaves size : Nat) : Except RowFault Unit :=
  if (group.chunks.take leaves).any fun chunk => !chunk.isWithin size then .error .outside
  else if group.chunks.length < leaves then .error (.fewColumns group.chunks.length)
  else .ok ()

/-- Checks the columns of groups of rows. -/
def checkGroups (leaves size : Nat) : List RowGroup → Except RowFault Unit
  | [] => .ok ()
  | group :: rest => do
    group.check leaves size
    checkGroups leaves size rest

/-- The number of rows in a file of so many bytes, in which there are no values. -/
def Footer.rowCount (footer : Footer) (size : Nat) : Except RowFault Nat := do
  (Column.checkAll footer.schema.columns).mapError .column
  checkGroups footer.schema.leaves size footer.groups
  let count := footer.groups.foldl (fun count group => count + group.rows.toNat) 0
  if footer.schema.leaves = 0 ∨ count = 0 then return count else throw .values

end JniSignatures.Columnar
