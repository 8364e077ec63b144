import JniSignatures.Audit.Arguments
import JniSignatures.Audit.Check
/-!
# The checker

The checker looks for a report at a path, or in the directory `report` below it, and checks it. Its
exit code is 0 if the report is consistent, 1 if it is not, and 2 if there is no report or the
checker is misused.
-/

namespace JniSignatures.Audit

open Files (Path Tree)

/-- What the checker says. -/
structure Verdict where
  code : Nat
  output : List String
  complaints : List Text
  deriving DecidableEq

/-- Whether a directory holds a report. -/
def holdsReport (tree : Tree) (path : Path) : Except Files.Fault Bool := do
  if ← tree.probeDirectory path then tree.probeFile (path.child Report.fileName) else return false

/-- The directory of the report that a path means. -/
def findRoot (tree : Tree) (path : Path) : Except Files.Fault Path := do
  if ← holdsReport tree path then return path
  let below := path.child "report"
  if ← holdsReport tree below then return below
  return path

/-- The verdict on a report that has been read. -/
def judge (runtime : Runtime) (tree : Tree) (root : Path) (report : Json) :
    Except Fault Verdict := do
  let lines := (← checkSummary report) ++ (← checkFacts runtime tree root report)
  if lines = [] then return ⟨0, ["Report ok: " ++ root.text], []⟩
  return ⟨1, [], "Report check failed:" :: lines.map fun line => "- " ++ line⟩

/-- The verdict on the report at a path. -/
def check (runtime : Runtime) (tree : Tree) (path : String) : Except Fault Verdict := do
  let root ← (findRoot tree (Path.ofText path)).mapError .files
  let file := root.child Report.fileName
  if ← (tree.probeFile file).mapError .files then
    let content ← (tree.read file.text).mapError .files
    match Document.read (runtime.depth .report) content.toBytes with
    | .ok report => judge runtime tree root report
    | .error (.undecodable refusal) => .error (.undecodable refusal)
    | .error (.longInt digits) => .error (.longInt digits)
    | .error (.tooDeep container) => .error (.tooDeep container)
    | .error (.malformed fault place) =>
      return ⟨1, [], ["Invalid JSON: " ++ file.text ++ ": " ++
        (Document.Fault.malformed fault place).message]⟩
  else return ⟨2, [], ["report.json not found under: " ++ root.text]⟩

/-- The verdict that a list of arguments asks for. -/
def run (runtime : Runtime) (tree : Tree) (args : List String) : Except Fault Verdict :=
  match Request.ofArgs args with
  | .check path => check runtime tree path
  | .help => .ok ⟨0, helpText, []⟩
  | .misuse message => .ok ⟨2, [], (misuseLines message).map Text.ofString⟩

end JniSignatures.Audit
