import JniSignatures.Text.Character
import JniSignatures.Text.Message
/-!
# The arguments of the checker

The checker takes one path. Of the options there is only the call for help, as `-h` or as a beginning
of `--help` that is longer than the dashes alone or has a value. Options are read in their order, and
the first call for help, or misuse of it, ends the reading. What else starts with a dash is an option
that nobody knows, unless it is a lone dash, a negative number, or has a blank inside; after two
dashes everything is a path.
-/

namespace JniSignatures.Audit

/-- How an argument is read. -/
inductive Argument where
  | path
  /-- The two dashes behind which everything is a path. -/
  | dashes
  /-- A call for help in its short form, with what is attached to it. -/
  | shortHelp (attached : List Char)
  /-- A call for help in its long form, perhaps with a value. -/
  | longHelp (value : Option (List Char))
  | unknown

/-- Whether a text is digits, or digits around a point with one behind it. -/
def isUnsigned (cs : List Char) : Bool :=
  let whole := cs.takeWhile Text.isDecimalDigit
  match cs.drop whole.length with
  | [] => whole ≠ []
  | '.' :: fraction => fraction ≠ [] && fraction.all Text.isDecimalDigit
  | _ => false

/-- Whether a text looks like a negative number. A final line feed does not matter. -/
def isNegativeNumber : List Char → Bool
  | '-' :: cs => isUnsigned cs || (cs.getLast? == some '\n' && isUnsigned cs.dropLast)
  | _ => false

/-- Reads an argument that starts with a dash and is no known option. -/
def readOther (cs : List Char) : Argument :=
  if isNegativeNumber cs ∨ ' ' ∈ cs then .path else .unknown

/-- Reads an argument before which there are no two dashes. -/
def readArgument (text : String) : Argument :=
  match text.toList with
  | ['-', '-'] => .dashes
  | '-' :: '-' :: body =>
    let name := body.takeWhile (· != '=')
    let value := if name.length < body.length then some (body.drop (name.length + 1)) else none
    if name.isPrefixOf "help".toList then .longHelp value else readOther text.toList
  | ['-'] => .path
  | '-' :: 'h' :: '=' :: value => .shortHelp value
  | ['-', 'h'] => .longHelp none
  | '-' :: 'h' :: attached => .shortHelp attached
  | '-' :: _ => readOther text.toList
  | _ => .path

/-- What the arguments ask for. -/
inductive Request where
  | check (path : String)
  | help
  | misuse (message : String)
  deriving DecidableEq

/-- The misuse of a call for help. -/
def ignoredValue (value : List Char) : Request :=
  .misuse ("argument -h/--help: ignored explicit argument " ++ Text.quoted (String.ofList value))

/-- A short call for help with letters attached: each must call for help again. -/
def helpChain : List Char → Request
  | [] => ignoredValue []
  | 'h' :: [] => .help
  | 'h' :: rest => helpChain rest
  | other => ignoredValue other

/-- The arguments read so far: the path, whether it was the last thing read, what is left over, and
whether everything is a path now. -/
structure Reading where
  path : Option String
  fresh : Bool
  extras : List String
  onlyPaths : Bool

def Reading.initial : Reading := ⟨none, false, [], false⟩

/-- Takes a path. -/
def Reading.addPath (r : Reading) (text : String) : Reading :=
  match r.path with
  | none => { r with path := some text, fresh := true }
  | some _ => { r with fresh := false, extras := r.extras ++ [text] }

/-- Takes the two dashes: they belong to the path that is next to them, if there is one. -/
def Reading.addDashes (r : Reading) (text : String) : Reading :=
  if r.path.isNone || r.fresh then { r with fresh := false, onlyPaths := true }
  else { r with extras := r.extras ++ [text], onlyPaths := true }

/-- What has been read, as a request. -/
def Reading.finish (r : Reading) : Request :=
  match r.path with
  | none => .misuse "the following arguments are required: report"
  | some path =>
    if r.extras = [] then .check path
    else .misuse ("unrecognized arguments: " ++ String.intercalate " " r.extras)

/-- Reads the arguments from the first to the last. -/
def Reading.read (r : Reading) : List String → Request
  | [] => r.finish
  | text :: rest =>
    if r.onlyPaths then (r.addPath text).read rest
    else match readArgument text with
      | .path => (r.addPath text).read rest
      | .dashes => (r.addDashes text).read rest
      | .unknown => Reading.read { r with fresh := false, extras := r.extras ++ [text] } rest
      | .longHelp none => .help
      | .longHelp (some value) => ignoredValue value
      | .shortHelp attached => helpChain attached

/-- What a list of arguments asks for. -/
def Request.ofArgs (args : List String) : Request :=
  Reading.initial.read args

/-- The line that shows how to call the checker. -/
def usageLine : String := "usage: check_report.py [-h] report"

/-- The help text. -/
def helpText : List String :=
  [usageLine,
    "",
    "Check a jni_lens report directory for internal consistency. Validates that",
    "report.json parses, that the summary counts agree with the outcome list, and",
    "that the facts/ tables referenced by facts/index.json exist and carry the same",
    "rows, without invoking Ghidra.",
    "",
    "positional arguments:",
    "  report      Path to a report directory or the jni_lens output directory",
    "              containing report/",
    "",
    "options:",
    "  -h, --help  show this help message and exit"]

/-- The lines that tell of a misuse. -/
def misuseLines (message : String) : List String :=
  [usageLine, "check_report.py: error: " ++ message]

end JniSignatures.Audit
