import JniSignatures.Launch.Arguments
import JniSignatures.Script.Run
/-!
# The launcher

The launcher starts the host without a user on one binary, has it run the script, and tells from the
files in the directory of the report whether the pass went well. What an earlier run has left there
under the names of the report and of the error file is removed first.
-/

namespace JniSignatures.Launch

open Files (FileM Path Tree)

/-- What the host does when it is started. -/
inductive Behaviour where
  | runsScript
  | ignoresScript
  | refusesStart (message : String)
  deriving DecidableEq

/-- The surroundings of the launcher. -/
structure Setting where
  desk : Desk
  /-- Where the host is installed, if that is told. -/
  installDirectory : Option String
  /-- The directories to search for a binary, with colons between them. -/
  searchPath : String
  /-- The script for the host to run. -/
  script : String
  /-- Whether the script is there. -/
  hasScript : Bool
  behaviour : Behaviour

/-- Why the launcher stops. -/
inductive Stop where
  | exit (code : Nat)
  | files (fault : Files.Fault)
  | refused (message : String)
  deriving DecidableEq

/-- Tells what is wrong and exits. -/
def giveUp {α : Type} (lines : List String) : Job Stop α := do
  Job.complain lines
  throw (.exit 1)

/-- Whether a path leads to a file. -/
def isFile (path : Path) : Job Stop Bool := do
  Job.ofExcept (((← get).tree.probeFile path).mapError .files)

/-- A file to run of the given name. A name with a slash is not searched for. -/
def search (tree : Tree) (searchPath name : String) : Option String :=
  if name.toList.contains '/' then [name].find? tree.isExecutable
  else if searchPath = "" then none
  else
    let directories := (searchPath.toList.splitOn ':').map String.ofList
    (directories.map fun directory => Files.joinText directory name).find? tree.isExecutable

/-- The path of the binary. -/
def findBinary (searchPath name : String) : Job Stop Path := do
  let path := Path.ofText name
  if ← isFile path then return path
  match search (← get).tree searchPath name with
  | some found => return Path.ofText found
  | none =>
    giveUp ["Binary not found: " ++ name, "Hint: provide a full path to the native library."]

/-- The absolute path of a text. -/
def resolve (text : String) : Job Stop Path := do
  let path := Path.ofText text
  if path.parts.any (·.toList.contains '\x00') then throw (.files .nullCharacter)
  return path.absolute (← get).tree.home

/-- Removes a file if it is there. -/
def discard (path : Path) : FileM Unit :=
  tryCatch (.change (·.remove path.text)) fun fault =>
    if fault = .refused .noEntry path.text then pure () else throw fault

/-- Makes the directory for all output and removes what an earlier run has left. -/
def prepare (outDirectory reportFile errorFile : Path) : FileM Unit := do
  FileM.makePath (outDirectory.ancestors.map Path.text)
  discard reportFile
  discard errorFile

/-- Has the host run the script. -/
def runScript (setting : Setting) (args : List String) : Job Stop Unit := do
  Job.record (.runScript setting.script args)
  if setting.behaviour = .runsScript then
    match ← Job.outcome (Script.run setting.desk args) with
    | .ok _ => pure ()
    | .error _ => Job.record .scriptFailed

/-- Runs the launcher. -/
def run (setting : Setting) (args : List String) : Job Stop Unit := do
  let arguments ← match Arguments.ofList args with
    | .ok arguments => pure arguments
    | .error exit => do
      Job.complain exit.lines
      throw (.exit exit.code)
  let binary ← findBinary setting.searchPath arguments.binary
  let methods := Path.ofText arguments.methods
  if !(← isFile methods) then giveUp ["Methods file not found: " ++ arguments.methods]
  let installDirectory ← match setting.installDirectory.filter (· ≠ "") with
    | some directory => pure (Path.ofText directory)
    | none => giveUp ["GHIDRA_INSTALL_DIR is not set; point it at a Ghidra install."]
  if !setting.hasScript then giveUp ["Could not locate " ++ setting.script ++ "."]
  let outDirectory ← resolve arguments.outDirectory
  let reportDirectory := outDirectory.child "report"
  let reportFile := reportDirectory.child Report.fileName
  let errorFile := reportDirectory.child Script.errorFileName
  Job.onTree ((prepare outDirectory reportFile errorFile).adapt .files)
  Job.record <| .start
    { binary := binary.text
      projectDirectory := (outDirectory.child "ghidra_project").text
      projectName := binary.stem
      analyze := arguments.analyze
      programName := binary.name
      installDirectory := installDirectory.text }
  match setting.behaviour with
  | .refusesStart message => throw (.refused message)
  | _ => pure ()
  let methodsFile ← resolve arguments.methods
  runScript setting
    (methodsFile.text :: ("report_dir=" ++ reportDirectory.text) :: arguments.scriptArgs)
  Job.record .stop
  if ← isFile errorFile then giveUp ["JNI Lens pass failed; see " ++ errorFile.text]
  if !(← isFile reportFile) then giveUp ["JNI Lens pass failed; missing " ++ reportFile.text]
  Job.print ["JNI Lens report: " ++ reportFile.text]

end JniSignatures.Launch
