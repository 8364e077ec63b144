import JniSignatures.Json.Reader
import JniSignatures.Json.Writer
import JniSignatures.Report.FactRow
/-!
# The byte form of fact tables

Every table has the same mark at both ends. The tables that are written here have the rows as a JSON
document between the marks, behind a byte that no text in UTF-8 has.
-/

namespace JniSignatures.Columnar

/-- The mark at both ends of a table. -/
def mark : List UInt8 := [0x50, 0x41, 0x52, 0x31]

namespace Form

/-- What a table starts with that is written here. -/
def front : List UInt8 := mark ++ [0xFF]

/-- The bytes of a table. -/
def ofFacts (rows : List FactRow) : List UInt8 :=
  front ++ Text.Utf8.encode (Json.document (.array (rows.map FactRow.toJson))) ++ mark

def text? : Option Json → Option Text
  | some (.string text) => some text
  | _ => none

def int? : Option Json → Option Int
  | some (.int n) => some n
  | _ => none

/-- The row that an object stands for. -/
def row (value : Json) : FactRow :=
  { methodIndex := int? (value.get? "method_index")
    qualifiedName := text? (value.get? "qualified_name")
    candidateName := text? (value.get? "candidate_name")
    status := text? (value.get? "status")
    parameterCount := int? (value.get? "parameter_count")
    detail := text? (value.get? "detail") }

/-- How many containers may be open in the document of the rows: the array and one row. -/
def depth : Nat := 2

/-- The rows of a table that was written here. -/
def facts? (data : List UInt8) : Option (List FactRow) :=
  if front.isPrefixOf data then
    let document := (data.drop front.length).take (data.length - front.length - mark.length)
    match Document.read depth document with
    | .ok (.array rows) => some (rows.map row)
    | _ => none
  else none

end Form

end JniSignatures.Columnar
