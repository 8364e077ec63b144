import JniSignatures.Report.Document
import JniSignatures.Table.Library
/-!
# Saving a report

A report is saved into a directory, which is made if it is not there: first the table, then its
index, then the report itself. A failure leaves what has been written before it. Of a document that
cannot be written an empty file is left.
-/

namespace JniSignatures.Report

open Files (FileM Path Tree)

/-- Why a report cannot be saved. -/
inductive SaveFault where
  | files (fault : Files.Fault)
  | table (fault : Table.Fault)
  | longInt
  deriving DecidableEq

def SaveFault.message : SaveFault → String
  | .files fault => fault.message
  | .table fault => fault.message
  | .longInt =>
    "Exceeds the limit (" ++ toString Json.maxIntDigits ++
      " digits) for integer string conversion; use sys.set_int_max_str_digits() to increase the limit"

def SaveFault.kind : SaveFault → Kind
  | .files fault => fault.kind
  | .table fault => fault.kind
  | .longInt => .value

/-- An action that saves a part of a report. -/
abbrev SaveM := ExceptT SaveFault (StateM Tree)

/-- An action on files as a part of saving. -/
def onFiles {α : Type} (action : FileM α) : SaveM α :=
  action.adapt .files

/-- Writes the table. -/
def writeTable (tables : Table.Library) (path : String) (rows : List FactRow) : SaveM Unit :=
  ExceptT.mk fun tree =>
    let (result, tree) := tables.write tree path rows
    (result.mapError .table, tree)

/-- Writes a text into a file. -/
def writeText (path : String) (text : List Char) : SaveM Unit :=
  onFiles (.change (·.write path (.ofText text)))

/-- Writes a document. The file is opened before the document is turned into a text. -/
def writeDocument (path : String) (document : Json) : SaveM Unit := do
  if document.isWritable then writeText path (Json.document document)
  else
    writeText path []
    throw .longInt

/-- Saves a report into a directory; the result is the path of `report.json`. -/
def save (tables : Table.Library) (directory : String) (r : Report)
    (programName methodsPath : Option String) : SaveM Path := do
  let root := Path.ofText directory
  onFiles (FileM.makeDirectories (root.child factsDirectory).text)
  let rows := r.factRows
  writeTable tables (root.child tablePath).text rows
  writeDocument (root.child factsIndexPath).text (factsIndex rows.length)
  let path := root.child fileName
  writeDocument path.text (r.document programName methodsPath)
  return path

end JniSignatures.Report
