import JniSignatures.Pass.Sweep
import JniSignatures.Text.Character
/-!
# The options of the script

The script takes a flat list of texts. A text with an equals sign sets the option before its first
one; values are trimmed, an empty one unsets, and of several the last counts. Of the other texts the
first is the methods file, unless one is set. What is not understood is told and otherwise ignored.
-/

namespace JniSignatures

/-- The options of the script. -/
structure Options where
  methodsPath : Option String
  reportDirectory : Option String
  archive : Option String
  policy : Policy
  help : Bool
  deriving DecidableEq

namespace Options

/-- What holds before any argument is read. -/
def initial : Options :=
  { methodsPath := none, reportDirectory := none, archive := none, policy := .abort, help := false }

/-- The parts of an argument before and after its first equals sign. -/
def split? (arg : String) : Option (String × String) :=
  let cs := arg.toList
  let key := cs.takeWhile (· != '=')
  if key.length < cs.length then
    some (String.ofList key, String.ofList (cs.drop (key.length + 1)))
  else none

def isHelp (arg : String) : Bool :=
  arg == "-h" || arg == "--help"

/-- A value that counts as absent if it is empty. -/
def nonEmpty (value : String) : Option String :=
  if value = "" then none else some value

/-- Sets an option; the second part is the line to print, if there is one. -/
def set (o : Options) (key value : String) : Options × Option String :=
  if key = "methods" then ({ o with methodsPath := nonEmpty value }, none)
  else if key = "report_dir" then ({ o with reportDirectory := nonEmpty value }, none)
  else if key = "archive" then ({ o with archive := nonEmpty value }, none)
  else if key = "on_type_error" then
    match Policy.ofName? (Text.lower value) with
    | some policy => ({ o with policy }, none)
    | none => (o, some ("Invalid value for " ++ key ++ ": " ++ value))
  else (o, some ("Unknown option: " ++ key))

/-- The options after one more argument, and the line to print, if there is one. -/
def step (o : Options) (arg : String) : Options × Option String :=
  if isHelp arg then ({ o with help := true }, none)
  else match split? arg with
    | some (key, value) => o.set key (Text.trim value)
    | none => ({ o with methodsPath := o.methodsPath <|> some arg }, none)

/-- The options after further arguments, and the lines to print. -/
def stepAll (o : Options) : List String → Options × List String
  | [] => (o, [])
  | arg :: rest =>
    let (next, line) := o.step arg
    let (final, lines) := next.stepAll rest
    (final, line.toList ++ lines)

/-- The options that the arguments give, and the lines to print. -/
def ofArgs (args : List String) : Options × List String :=
  initial.stepAll args

/-- How to use the script. -/
def usage : List String :=
  ["JNI Lens signature applier",
    "Usage:",
    "  <script> <methods.json> [key=value ...]",
    "Options:",
    "  report_dir=<dir>        write report.json and facts/ under <dir>",
    "  archive=<jni_all.gdt>   JNI type archive (default: already open or module data)",
    "  on_type_error=" ++ String.intercalate "|" (Policy.all.map Policy.name)]

end Options

end JniSignatures
