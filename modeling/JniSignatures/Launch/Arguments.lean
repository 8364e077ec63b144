import JniSignatures.Script.Options
/-!
# The arguments of the launcher

The launcher takes a binary, a methods file and options. `-o` takes the next argument as its value,
whatever that is. An argument with an equals sign goes on to the script, unless it says whether to
analyze. The first fault, or a call for help, ends the reading.
-/

namespace JniSignatures.Launch

/-- What the arguments say. -/
structure Arguments where
  binary : String
  methods : String
  outDirectory : String
  analyze : Bool
  scriptArgs : List String
  deriving DecidableEq

/-- How the reading ends early: an exit code, and the lines for the error stream. -/
structure Exit where
  code : Nat
  lines : List String
  deriving DecidableEq

/-- How to use the launcher. -/
def usage : List String :=
  ["Usage:",
    "  jni_lens <binary> <methods.json> [-o <output_dir>] [key=value ...]",
    "Options (key=value):",
    "  analyze=0|1            run Ghidra auto-analysis before the pass (default 1)",
    "  archive=<jni_all.gdt>  JNI type archive",
    "  on_type_error=abort|skip",
    "Default output dir: out"]

namespace Arguments

/-- What has been read so far. -/
structure Draft where
  binary : Option String
  methods : Option String
  outDirectory : String
  analyze : Bool
  scriptArgs : List String
  deriving DecidableEq

def Draft.initial : Draft := ⟨none, none, "out", true, []⟩

/-- Whether a value means yes. -/
def isYes (value : String) : Bool :=
  ["1", "true", "yes", "on"].contains (Text.lower (Text.trim value))

def isOutput (arg : String) : Bool :=
  arg == "-o" || arg == "--output"

/-- Reads an argument that has an equals sign after its key. -/
def Draft.setOption (d : Draft) (arg key value : String) : Draft :=
  if key = "analyze" then { d with analyze := isYes value }
  else { d with scriptArgs := d.scriptArgs ++ [arg] }

/-- Reads an argument that is no option. -/
def Draft.addPositional (d : Draft) (arg : String) : Except Exit Draft :=
  match d.binary, d.methods with
  | none, _ => .ok { d with binary := some arg }
  | some _, none => .ok { d with methods := some arg }
  | some _, some _ => .error ⟨1, ("Unexpected argument: " ++ arg) :: usage⟩

/-- Reads arguments from the first to the last. -/
def Draft.read (d : Draft) : List String → Except Exit Draft
  | [] => .ok d
  | arg :: rest =>
    if Options.isHelp arg then .error ⟨0, usage⟩
    else if isOutput arg then
      match rest with
      | [] => .error ⟨1, "Missing value for -o/--output." :: usage⟩
      | value :: rest => Draft.read { d with outDirectory := value } rest
    else match Options.split? arg with
      | some (key, value) => Draft.read (d.setOption arg key value) rest
      | none =>
        match d.addPositional arg with
        | .ok next => Draft.read next rest
        | .error exit => .error exit

/-- The arguments, if there are both a binary and a methods file. -/
def Draft.finish (d : Draft) : Except Exit Arguments :=
  match d.binary, d.methods with
  | some binary, some methods =>
    if binary = "" ∨ methods = "" then .error ⟨1, usage⟩
    else .ok ⟨binary, methods, d.outDirectory, d.analyze, d.scriptArgs⟩
  | _, _ => .error ⟨1, usage⟩

/-- What a list of arguments says. -/
def ofList (args : List String) : Except Exit Arguments :=
  (Draft.initial.read args).bind Draft.finish

end Arguments

end JniSignatures.Launch
