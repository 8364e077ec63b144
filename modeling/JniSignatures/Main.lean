import JniSignatures.Audit.Run
import JniSignatures.Columnar.Library
import JniSignatures.Launch.Run
/-!
# The command line

`check` runs the checker and `launch` the launcher, each with the arguments that follow the word. The
files that they work on come in on the standard input, as one JSON object from paths to texts. There
is no host at the command line: the launcher finds out whether all that it needs is in order, and
stops where it would start the host.
-/

namespace JniSignatures.CommandLine

open Files (FileM Tree)

/-- What commands rely on. -/
def runtime : Runtime where
  tables := Columnar.library
  depth _ := Document.supportedDepth
  supported _ := Nat.le_refl Document.supportedDepth
  trace _ := ["Traceback (most recent call last):", "  the calls are not told"]

/-- Puts a file with a text into the tree, and the directories above it. -/
def putFile (path text : String) : FileM Unit := do
  FileM.makeMissing (FileM.textsAbove path)
  FileM.change (·.write path (.ofText text.toList))

/-- Puts the files of a bundle into the tree. A field that is no string is passed over. -/
def putFiles : List (Text × Json) → FileM Unit
  | [] => pure ()
  | (path, .string text) :: rest => do
    match path.string?, text.string? with
    | some path, some text => putFile path text
    | _, _ => pure ()
    putFiles rest
  | _ :: rest => putFiles rest

/-- The tree with the files of a bundle, or what is wrong with the bundle. -/
def unpack (home : Files.Location) (bundle : String) : Except String Tree :=
  match Document.ofText Document.supportedDepth bundle.toList with
  | .error fault => .error fault.message
  | .ok (.object fields) =>
    match (putFiles fields).run.run ⟨home, []⟩ with
    | (.ok _, tree) => .ok tree
    | (.error fault, _) => .error fault.message
  | .ok _ => .error "the files must be one JSON object"

/-- What a command prints, line by line, and its exit code. -/
structure Answer where
  code : Nat
  output : List Text
  complaints : List Text

/-- The answer of the checker. -/
def check (tree : Tree) (args : List String) : Answer :=
  match Audit.run runtime tree args with
  | .ok verdict => ⟨verdict.code, verdict.output.map Text.ofString, verdict.complaints⟩
  | .error fault => ⟨1, [], [fault.kind.line fault.message]⟩

/-- The exit code of a launch that stops, and the line that tells why, if it has not been told. -/
def ending : Launch.Stop → Nat × List Text
  | .exit code => (code, [])
  | .files fault => (1, [fault.kind.line fault.message])
  | .refused message => (1, [message])

/-- The surroundings of a launch without a host. -/
def setting (installDirectory : Option String) (searchPath : String) : Launch.Setting :=
  { desk :=
      { programName := ""
        headless := true
        tool := .unknown
        types := []
        moduleFile := none
        openRefusal := none
        closeRefusal := none
        chosenFile := none
        runtime }
    installDirectory
    searchPath
    script := ""
    hasScript := true
    behaviour := .refusesStart "there is no host to start" }

/-- The answer of the launcher. -/
def launch (tree : Tree) (s : Launch.Setting) (args : List String) : Answer :=
  match (Launch.run s args).run.run ⟨⟨[], [], [], [], []⟩, tree, []⟩ with
  | (.ok _, w) => ⟨0, w.session.printed, w.complaints.map Text.ofString⟩
  | (.error stop, w) =>
    let (code, lines) := ending stop
    ⟨code, w.session.printed, w.complaints.map Text.ofString ++ lines⟩

/-- The answer to a command that nobody knows. -/
def unknown : Answer :=
  ⟨2, [], ["usage: check ARGUMENTS < FILES", "       launch ARGUMENTS < FILES"]⟩

/-- A text as it is printed, with escapes for the surrogates in it. -/
def shown (t : Text) : String :=
  String.ofList (t.points.flatMap fun c => match c.char? with
    | some c => [c]
    | none => Json.unitEscape c.toNat)

/-- Prints an answer. -/
def answer (a : Answer) : IO UInt32 := do
  for line in a.output do IO.println (shown line)
  for line in a.complaints do IO.eprintln (shown line)
  return UInt32.ofNat a.code

/-- The rest of the standard input. -/
partial def readRest (input : IO.FS.Stream) (text : String) : IO String := do
  let line ← input.getLine
  if line.isEmpty then return text else readRest input (text ++ line)

/-- Runs a command on the files of the standard input. -/
def run (command : Tree → List String → IO Answer) (args : List String) : IO UInt32 := do
  let home := (Files.Path.ofText ((← IO.getEnv "PWD").getD "/")).parts
  match unpack home (← readRest (← IO.getStdin) "") with
  | .error message => answer ⟨2, [], [message]⟩
  | .ok tree => answer (← command tree args)

/-- Runs the command that the first argument names. -/
def execute : List String → IO UInt32
  | "check" :: args => run (fun tree args => return check tree args) args
  | "launch" :: args =>
    run (fun tree args => do
      let s := setting (← IO.getEnv "GHIDRA_INSTALL_DIR") ((← IO.getEnv "PATH").getD "")
      return launch tree s args) args
  | _ => answer unknown

end JniSignatures.CommandLine

def main (args : List String) : IO UInt32 :=
  JniSignatures.CommandLine.execute args
