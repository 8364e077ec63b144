import JniSignatures.Json.Value
/-!
# Rows of the fact table

The fact table has one row per declared method, in the order of the methods file. A row read from a
file may lack any cell.
-/

namespace JniSignatures

/-- A row of the fact table. -/
structure FactRow where
  methodIndex : Option Int
  qualifiedName : Option Text
  candidateName : Option Text
  status : Option Text
  parameterCount : Option Int
  detail : Option Text
  deriving DecidableEq

namespace FactRow

/-- The names of the columns. -/
def columns : List String :=
  ["candidate_name", "detail", "method_index", "parameter_count", "qualified_name", "status"]

/-- The cells of a row, each with the name of its column. -/
def cells (row : FactRow) : List (Text × Json) :=
  [("candidate_name", .ofText? row.candidateName),
    ("detail", .ofText? row.detail),
    ("method_index", .ofInt? row.methodIndex),
    ("parameter_count", .ofInt? row.parameterCount),
    ("qualified_name", .ofText? row.qualifiedName),
    ("status", .ofText? row.status)]

/-- A row as an object. -/
def toJson (row : FactRow) : Json :=
  .object row.cells

end FactRow

end JniSignatures
