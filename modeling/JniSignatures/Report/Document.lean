import JniSignatures.Json.Writer
import JniSignatures.Report.Basic
import JniSignatures.Report.FactRow
/-!
# The documents of a report

A report is kept as a directory: `report.json` holds the summary and all lists, and the directory
`facts` holds one table with a row per method, described by an index. Both documents list the fields
of each object in the order of their names, so that reports of repeated passes differ only where the
passes do.
-/

namespace JniSignatures

namespace Report

/-! ## Names within the directory -/

def fileName : String := "report.json"

def factsDirectory : String := "facts"

/-- The index of the tables, from the report's directory. -/
def factsIndexPath : String := "facts/index.json"

/-- The name of the table of method facts. -/
def tableName : String := "jni_methods"

/-- The table of method facts, from the report's directory. -/
def tablePath : String := "facts/jni_methods.parquet"

/-! ## Versions -/

def toolVersion : String := "0.1.0-dev"

def schemaVersion : String := "v1"

/-- The object that names the schema of a document. -/
def schemaTag (name : String) : Json :=
  .object [("name", .string name), ("version", .string schemaVersion)]

/-! ## Rows -/

/-- The row of an outcome at a position. -/
def factRow (position : Nat) (o : Outcome) : FactRow :=
  { methodIndex := some position
    qualifiedName := o.qualifiedName
    candidateName := o.candidateName.map Text.ofString
    status := some o.status.word
    parameterCount := o.parameterCount
    detail := o.detail }

/-- The rows of outcomes that stand from a position on. -/
def factRowsFrom (position : Nat) : List Outcome → List FactRow
  | [] => []
  | o :: rest => factRow position o :: factRowsFrom (position + 1) rest

/-- The rows of a report, one per outcome. -/
def factRows (r : Report) : List FactRow :=
  factRowsFrom 0 r.outcomes

end Report

/-! ## Documents -/

/-- The object of the counts. -/
def Summary.toJson (s : Summary) : Json :=
  .object [
    ("applied_count", .int s.applied),
    ("ignored_count", .int s.ignored),
    ("indexed_count", .int s.indexed),
    ("method_count", .int s.methods),
    ("no_match_count", .int s.noMatch),
    ("onload_modified_count", .int s.onLoadModified),
    ("type_error_count", .int s.typeError),
    ("unsupported_count", .int s.unsupported)]

namespace Report

/-- The document of a report on a program, made from a methods file. -/
def document (r : Report) (programName methodsPath : Option String) : Json :=
  .object [
    ("facts_ref", .string factsIndexPath),
    ("ignored", .ofStrings r.ignored),
    ("indexed", .ofStrings r.indexed),
    ("methods_path", .ofText? (methodsPath.map Text.ofString)),
    ("onload_modified", .ofStrings r.onLoadModified),
    ("outcomes", .array (r.factRows.map FactRow.toJson)),
    ("program_name", .ofText? (programName.map Text.ofString)),
    ("schema", schemaTag "jni_lens_report"),
    ("summary", r.summary.toJson),
    ("tool_version", .string toolVersion)]

/-- The columns of the table with their types. -/
def columns : List (String × String) :=
  [("method_index", "int64"), ("qualified_name", "string"), ("candidate_name", "string"),
    ("status", "string"), ("parameter_count", "int64"), ("detail", "string")]

/-- The index of a table with that many rows. -/
def factsIndex (rowCount : Nat) : Json :=
  .object [
    ("schema", schemaTag "jni_lens_facts"),
    ("tables", .array [.object [
      ("description", .string "One row per declared native method, in methods-file order."),
      ("name", .string tableName),
      ("paths", .ofStrings [tablePath]),
      ("primary_key", .ofStrings ["method_index"]),
      ("row_count", .int rowCount),
      ("schema", .array (columns.map fun (name, type) =>
        .object [("name", .string name), ("type", .string type)]))]])]

end Report

end JniSignatures
