import JniSignatures.Columnar.Address
import JniSignatures.Table.Library
/-!
# A library of tables

The command line comes with a library of its own, which keeps tables in files and tells an address from
a path. A report with a count or a text that no column takes is refused before anything is written,
column by column; a row without a qualified name is refused only when the table is written. When a
table cannot be written, a file that had its path is gone. A path with a surrogate in it is refused, if
it leads to a file.
-/

namespace JniSignatures.Columnar

open Files (Path Tree)

/-- Why a table cannot be written. -/
inductive WriteFault where
  | countTooLarge
  | unencodable (text : Text.Utf8.Unencodable)
  | cellMissing (column : String)
  | put (fault : Fault)

def WriteFault.message : WriteFault → String
  | .countTooLarge => "Python int too large to convert to C long"
  | .unencodable text => text.message
  | .cellMissing column => "Column '" ++ column ++ "' is declared non-nullable but contains nulls"
  | .put fault => fault.message

def WriteFault.kind : WriteFault → Kind
  | .countTooLarge => .overflow
  | .unencodable _ => .unicodeEncode
  | .cellMissing _ => .table
  | .put fault => fault.kind

/-- What is wrong with a column of integers. -/
def integersFault? (cells : List (Option Int)) : Option WriteFault :=
  if cells.all (·.all Table.fitsColumn) then none else some .countTooLarge

/-- What is wrong with a column of texts: the first text at fault tells. -/
def textsFault? (cells : List (Option Text)) : Option WriteFault :=
  cells.findSome? fun cell => (cell.bind Text.Utf8.unencodable?).map .unencodable

/-- What keeps rows from being a table: the first column at fault tells. -/
def cellFault? (rows : List FactRow) : Option WriteFault :=
  integersFault? (rows.map (·.methodIndex)) <|> textsFault? (rows.map (·.qualifiedName)) <|>
    textsFault? (rows.map (·.candidateName)) <|> textsFault? (rows.map (·.status)) <|>
    integersFault? (rows.map (·.parameterCount)) <|> textsFault? (rows.map (·.detail))

/-- The tree without a file, or as it is if the file cannot be removed. -/
def discard (tree : Tree) (text : String) : Tree :=
  match tree.remove text with
  | .ok next => next
  | .error _ => tree

/-- Writes a table. -/
def write (tree : Tree) (text : String) (rows : List FactRow) : Except WriteFault Unit × Tree :=
  match cellFault? rows with
  | some fault => (.error fault, tree)
  | none =>
    match put tree text rows with
    | .error fault => (.error (.put fault), discard tree text)
    | .ok next =>
      if rows.any (·.qualifiedName.isNone) then
        (.error (.cellMissing "qualified_name"), discard next text)
      else (.ok (), next)

/-- The bytes that stand for a code point in the name of a file. The surrogates from U+DC80 to U+DCFF
stand for the bytes from 0x80 on. -/
def nameBytes? (c : CodePoint) : Option (List UInt8) :=
  match c.char? with
  | some c => some (String.utf8EncodeChar c)
  | none =>
    if 0xDC80 ≤ c.toNat ∧ c.toNat ≤ 0xDCFF then some [UInt8.ofNat (c.toNat - 0xDC00)] else none

/-- The name that a text stands for in the system, where names are in UTF-8. -/
def fileName? (t : Text) : Option String := do
  let bytes ← t.points.mapM nameBytes?
  let cs ← (Text.Utf8.decode bytes.flatten).toOption
  return String.ofList cs

/-- Refuses a path with a surrogate in it, if it leads to a file. -/
def stray (tree : Tree) (root : Path) (path : Text) : Except Table.Fault (Option Table.Rows) :=
  match fileName? path with
  | none => .ok none
  | some name =>
    match tree.probeFile (root.child name) with
    | .error fault => .error ⟨fault.kind, fault.message⟩
    | .ok false => .ok none
    | .ok true => .error ⟨.unicodeEncode, ((Text.Utf8.unencodable? path).map (·.message)).getD ""⟩

/-- The library. -/
def library : Table.Library where
  write tree text rows :=
    let (result, next) := write tree text rows
    (result.mapError fun fault => ⟨fault.kind, fault.message⟩, next)
  read tree text :=
    match rowsAt tree text with
    | .ok rows => .ok ⟨rows.length, (Json.array rows).agrees⟩
    | .error fault => .error ⟨fault.kind, fault.message⟩
  stray := stray

end JniSignatures.Columnar
