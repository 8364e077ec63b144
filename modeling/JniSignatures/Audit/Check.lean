import JniSignatures.Audit.Fault
import JniSignatures.Files.Tree
import JniSignatures.Json.Display
import JniSignatures.Report.Document
import JniSignatures.Runtime
/-!
# Checking a report

The check compares the counts of a report with its lists, and the fact tables with the outcomes. Each
disagreement is an error line. Counts are compared as values: a count may be written as any number,
or a boolean, that equals it.
-/

namespace JniSignatures.Audit

open Files (Path Tree)

/-! ## The counts -/

/-- Whether a field is a value equal to a number. -/
def isCount (field : Option Json) (n : Nat) : Bool :=
  field.any fun value => value.agrees (.int n)

/-- The line for a count that differs, or none. -/
def countLine (key : String) (field : Option Json) (n : Nat) (things : String) : List Text :=
  if isCount field n then []
  else [key ++ " " ++ Json.displayField field ++ " != " ++ toString n ++ " " ++ things]

/-- The statuses that are counted, with the names of their counts. -/
def countedStatuses : List (Status × String) :=
  [(.applied, "applied_count"), (.noMatch, "no_match_count"), (.unsupported, "unsupported_count"),
    (.typeError, "type_error_count")]

/-- The lists that are counted, with the names of their counts. -/
def countedLists : List (String × String) :=
  [("indexed", "indexed_count"), ("ignored", "ignored_count")]

/-- The status of an outcome, null if it has none; nothing for an outcome that is no object. -/
def status? : Json → Option Json
  | .object fields => some ((fields.lookup ("status" : Text)).getD .null)
  | _ => none

/-- Whether a value can be counted. -/
def isCountable : Json → Bool
  | .array _ | .object _ => false
  | _ => true

/-- The number of statuses that are the given one. -/
def countStatus (statuses : List Json) (status : Status) : Nat :=
  statuses.countP fun value => match value with
    | .string word => word = status.word
    | _ => false

/-- The lines for the statuses whose counts differ. -/
def statusLines (summary : Json) (statuses : List Json) : List Text :=
  countedStatuses.flatMap fun (status, key) =>
    countLine key (summary.get? key) (countStatus statuses status) (status.word ++ " outcomes")

/-- The lines for the lists whose lengths differ from their counts. -/
def listLines (report summary : Json) : List Text :=
  countedLists.flatMap fun (list, key) =>
    match report.get? list with
    | some (.array items) => countLine key (summary.get? key) items.length (list ++ " entries")
    | _ => []

/-- The lines for the counts of a report. -/
def checkSummary (report : Json) : Except Fault (List Text) :=
  match report with
  | .object _ =>
    match report.get? "summary", report.get? "outcomes" with
    | some (.object fields), some (.array outcomes) =>
      let summary := Json.object fields
      let statuses := outcomes.filterMap status?
      match statuses.find? fun value => !isCountable value with
      | some value => .error (.notCountable value.kind)
      | none =>
        .ok (countLine "method_count" (summary.get? "method_count") outcomes.length "outcomes" ++
          statusLines summary statuses ++ listLines report summary)
    | _, _ => .ok ["report.json missing summary or outcomes"]
  | other => .error (.noFields other.kind)

/-! ## The tables -/

/-- The paths of a table: the items of a list, the characters of a text, the keys of an object;
nothing if there is nothing in it. -/
def pathsOf (field : Option Json) : Except Fault (List Json) :=
  match field with
  | none => .ok []
  | some value =>
    if value.isEmpty then .ok []
    else match value with
      | .array items => .ok items
      | .string text => .ok (text.points.map fun c => .string ⟨[c]⟩)
      | .object fields => .ok (fields.map fun entry => .string entry.1)
      | other => .error (.notIterable other.kind)

/-- The lines for the rows that are kept under a path. -/
def rowLines (report table : Json) (path : Text) (rows : Table.Rows) : List Text :=
  (if isCount (table.get? "row_count") rows.count then []
   else [path ++ ": " ++ toString rows.count ++ " rows != row_count " ++
     Json.displayField (table.get? "row_count")]) ++
  (if (table.get? "name").any (Json.agrees (.string Report.tableName)) &&
      !(report.get? "outcomes").any rows.agrees
   then [path ++ ": rows differ from report.json outcomes"] else [])

/-- The rows under a path, or nothing if there is no file of it. -/
def tableAt (tables : Table.Library) (tree : Tree) (root : Path) (path : Text) :
    Except Fault (Option Table.Rows) :=
  match path.string? with
  | some name => do
    let file := root.child name
    if ← (tree.probeFile file).mapError .files then
      let rows ← (tables.read tree file.text).mapError .table
      return some rows
    else return none
  | none => (tables.stray tree root path).mapError .table

/-- The lines for one path of a table. -/
def checkPath (tables : Table.Library) (tree : Tree) (root : Path) (report table : Json)
    (path : Json) : Except Fault (List Text) :=
  match path with
  | .string text => do
    match ← tableAt tables tree root text with
    | some rows => return rowLines report table text rows
    | none => return ["missing fact table " ++ text]
  | other => .error (.notJoinable other.kind)

/-- The lines of a list of checks, up to the first one that fails. -/
def collect {α : Type} (check : α → Except Fault (List Text)) : List α → Except Fault (List Text)
  | [] => .ok []
  | x :: rest => do
    let lines ← check x
    let others ← collect check rest
    return lines ++ others

/-- The lines for one table. What is no object is passed over. -/
def checkTable (tables : Table.Library) (tree : Tree) (root : Path) (report table : Json) :
    Except Fault (List Text) :=
  match table with
  | .object _ => do
    collect (checkPath tables tree root report table) (← pathsOf (table.get? "paths"))
  | _ => .ok []

/-- The lines for the tables that an index lists. -/
def checkIndex (tables : Table.Library) (tree : Tree) (root : Path) (report index : Json) :
    Except Fault (List Text) :=
  match index.get? "tables" with
  | some (.array listed) => collect (checkTable tables tree root report) listed
  | _ => .ok ["facts/index.json missing tables list"]

/-- The lines for the facts of a report. -/
def checkFacts (runtime : Runtime) (tree : Tree) (root : Path) (report : Json) :
    Except Fault (List Text) := do
  let file := root.child Report.factsIndexPath
  if ← (tree.probeFile file).mapError .files then
    let content ← (tree.read file.text).mapError .files
    match Document.read (runtime.depth .factsIndex) content.toBytes with
    | .ok index => checkIndex runtime.tables tree root report index
    | .error (.undecodable refusal) => .error (.undecodable refusal)
    | .error (.longInt digits) => .error (.longInt digits)
    | .error (.tooDeep container) => .error (.tooDeep container)
    | .error (.malformed fault place) =>
      .ok ["facts/index.json: " ++ (Document.Fault.malformed fault place).message]
  else return ["facts/index.json not found"]

end JniSignatures.Audit
