import JniSignatures.Columnar.Footer
import JniSignatures.Files.Tree
import JniSignatures.Columnar.Uri
/-!
# The rows of tables

What is read of a table are its rows under the names of its columns. `Rows.ofContent` reads one file.
A directory may hold a table in many files, whose columns are those of the first one; directories
within it that are named like `key=value` give every row below them one more cell. `Rows.ofParts`
puts the rows of such files together.
-/

namespace JniSignatures.Columnar

open Files (Content)

/-- What is read of a table: the names of its columns, and the cells of its rows under these names. -/
structure Rows where
  columns : List String
  cells : List (List (Text × Json))

/-- What is wrong with a file that cannot be read as a table. -/
inductive Flaw where
  | content (fault : ContentFault)
  | rows (fault : RowFault)
  /-- The name of a column is no text. -/
  | name (refusal : Text.Utf8.Refusal)
  deriving DecidableEq

/-- Whether the columns cannot be told. -/
def Flaw.hidesColumns : Flaw → Bool
  | .content _ | .rows (.column _) => true
  | _ => false

/-- Why a file cannot be read as a table. -/
structure FileFault where
  path : String
  flaw : Flaw
  /-- Whether the file is the one that tells the columns of a directory. -/
  isFirst : Bool
  deriving DecidableEq

namespace FileFault

def message (fault : FileFault) : String :=
  let text := match fault.flaw with
    | .content flaw => "Could not open Parquet input source '" ++ fault.path ++ "': " ++ flaw.message
    | .rows flaw => flaw.message
    | .name refusal => refusal.message
  if fault.isFirst && fault.flaw.hidesColumns then
    "Error creating dataset. Could not read schema from '" ++ fault.path ++
      "'. Is this a 'parquet' file?: " ++ text
  else text

def kind (fault : FileFault) : Kind :=
  match fault.flaw with
  | .content flaw => flaw.kind
  | .rows flaw => flaw.kind
  | .name _ => .unicodeDecode

end FileFault

namespace Rows

/-- The rows of a table as it was written. -/
def ofFacts (rows : List FactRow) : Rows :=
  { columns := FactRow.columns, cells := rows.map FactRow.cells }

/-- The texts of names in UTF-8. -/
def textsOf (names : List (List UInt8)) : Except Text.Utf8.Refusal (List String) :=
  names.mapM fun name => (Text.Utf8.decode name).map String.ofList

/-- The rows of bytes, as far as their footer tells them. -/
def ofBytes (data : List UInt8) : Except Flaw Rows := do
  let footer ← (Footer.ofBytes data).mapError .content
  let count ← (footer.rowCount data.length).mapError .rows
  let columns ← (textsOf (footer.schema.columns.map Column.name)).mapError .name
  return ⟨columns, List.replicate count (columns.map fun column : String => (column, .null))⟩

/-- The rows of a file. -/
def ofContent (content : Content) : Except Flaw Rows :=
  match Form.facts? content.toBytes with
  | some rows => .ok (ofFacts rows)
  | none => ofBytes content.toBytes

/-- The rows with only the given columns, which are null where there is none. -/
def project (rows : Rows) (columns : List String) : List (List (Text × Json)) :=
  rows.cells.map fun row =>
    columns.map fun column : String => (column, (row.lookup (column : Text)).getD .null)

end Rows

/-! ## Directories -/

/-- A file in a directory: its path, the directories within that lead to it, and what it holds. -/
structure Part where
  path : String
  folders : List String
  content : Content

namespace Part

/-- Whether a file or a directory of the name is passed over. -/
def isHidden (name : String) : Bool :=
  name.toList.head? = some '.' || name.toList.head? = some '_'

/-- The parts of a directory among the files below it, in the order of their paths. -/
def ofFiles (folder : String) (files : List (List String × Content)) : List Part :=
  let shown := files.filter fun file => !file.1.any isHidden
  let parts := shown.map fun (names, content) =>
    { path := Files.joinText folder (String.intercalate "/" names), folders := names.dropLast,
      content := content : Part }
  parts.mergeSort fun a b => !decide (b.path < a.path)

/-- A text that stands for no value. -/
def nullText : String := "__HIVE_DEFAULT_PARTITION__"

/-- A text with its escapes resolved. -/
def plainText (text : List Char) : String :=
  String.ofList (Text.Utf8.decodeReplacing (Uri.unescape text))

/-- The keys and values that the directories of a part are named for. -/
def labels (part : Part) : List (String × String) :=
  part.folders.filterMap fun folder =>
    let key := folder.toList.takeWhile (· != '=')
    if key.length < folder.toList.length then
      some (plainText key, plainText (folder.toList.drop (key.length + 1)))
    else none

end Part

/-- The integer of 32 bits that a text is. -/
def smallInt? (text : String) : Option Int :=
  let digits := if text.toList.head? = some '-' then text.toList.drop 1 else text.toList
  let size := digits.foldl (fun n c => n * 10 + (c.toNat - '0'.toNat)) 0
  let value : Int := if text.toList.head? = some '-' then -size else size
  if digits ≠ [] ∧ digits.all Uri.isDigit ∧ -2147483648 ≤ value ∧ value ≤ 2147483647 then some value
  else none

/-- The values of a label as cells: integers if all of them are such, and texts otherwise. -/
def labelCell (values : List String) (value? : Option String) : Json :=
  match value? with
  | none => .null
  | some value =>
    if value = Part.nullText then .null
    else if values.all fun other => other = Part.nullText || (smallInt? other).isSome then
      .ofInt? (smallInt? value)
    else .string value

/-- The cells that the directories of a part give its rows, when these are all parts. -/
def labelCells (parts : List Part) (part : Part) : List (Text × Json) :=
  let all := parts.flatMap Part.labels
  let keys := (all.map Prod.fst).eraseDups
  keys.map fun key : String =>
    (key, labelCell ((all.filter fun label => label.1 = key).map Prod.snd) (part.labels.lookup key))

/-- The rows of the parts of a directory, all with the columns of the first one. -/
def Rows.ofParts (parts : List Part) : Except FileFault (List (List (Text × Json))) :=
  match parts with
  | [] => .ok []
  | first :: rest => do
    let head ← (Rows.ofContent first.content).mapError (⟨first.path, ·, true⟩)
    let others ← rest.mapM fun part =>
      (Rows.ofContent part.content).mapError (⟨part.path, ·, false⟩)
    return ((first, head) :: rest.zip others).flatMap fun (part, rows) =>
      (rows.project head.columns).map (· ++ labelCells parts part)

end JniSignatures.Columnar
