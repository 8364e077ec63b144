import JniSignatures.Pass.Sweep
import JniSignatures.Script.Failure
import JniSignatures.Script.Options
/-!
# The script

The script reads its options, finds the archive of types and the methods, makes the pass and saves
the report, if a directory for it is set. An archive that it has opened for itself is closed after
the pass, however the pass ends. A failure is written to an error file in the directory of the
report, if that can be done, and is then the failure of the script. An account with a surrogate in it
cannot be written, and the error file is then empty.
-/

namespace JniSignatures.Script

/-- The file, in the directory of the report, that tells of a failure. -/
def errorFileName : String := "apply_error.txt"

/-- Does something that may fail and takes no notice if it does. -/
def attempt {ε ε' : Type} (job : Job ε Unit) : Job ε' Unit := do
  let _ ← Job.outcome job

/-- Closes an archive; the host may refuse. -/
def close (desk : Desk) (archive : Archive) : Job ActionFault Unit := do
  Job.record (.close archive.label)
  match desk.closeRefusal with
  | some message => throw (.refused message)
  | none => pure ()

/-- Loads the methods and makes the pass with the types of an archive. In the methods file `depth`
containers may be open at a time. -/
def sweep (depth : Nat) (archive : Archive) (policy : Policy) (methodsPath : String) :
    Job Failure Report := do
  modify fun w => { w with session := { w.session with types := archive.types, known := [] } }
  let methods ← Job.ofExcept ((Method.load depth (← get).tree methodsPath).mapError .methods)
  Job.onSession ((Pass.run policy methods).adapt .action)

/-- Does something and closes the archive after it, if it is the run's own. -/
def closing {α : Type} (desk : Desk) (archive : Archive) (job : Job Failure α) : Job Failure α := do
  let result ← Job.outcome job
  if desk.service.isNone then attempt (close desk archive)
  Job.ofExcept result

/-- The pass from the archive to the report. -/
def runPass (desk : Desk) (options : Options) (methodsPath : String) : Job Failure Unit := do
  Job.print ["[+] Import jni_all.h..."]
  let archive ← (Archive.acquire desk options.archive).adapt .archive
  let report ← closing desk archive
    (sweep (desk.runtime.depth .methods) archive options.policy methodsPath)
  match options.reportDirectory with
  | none => pure ()
  | some directory => do
    let path ← Job.onTree
      ((Report.save desk.runtime.tables directory report (some desk.programName)
        (some methodsPath)).adapt .save)
    Job.print ["Report written: " ++ path.text]

/-- The account of a failure: where it arose, and the line that names it. -/
def account (trace : Text → List String) (failure : Failure) : Text :=
  let lines := (trace failure.line).map Text.ofString ++ [failure.line]
  ⟨lines.flatMap fun line => line.points ++ [('\n' : CodePoint)]⟩

/-- What the error file holds: the account, or nothing if the account has a surrogate in it. The file
is opened before the account is turned into bytes. -/
def errorContent (trace : Text → List String) (failure : Failure) : Files.Content :=
  .ofText ((account trace failure).chars?.getD [])

/-- Writes the error file. -/
def writeError (trace : Text → List String) (directory : String) (failure : Failure) :
    Files.FileM Unit := do
  Files.FileM.makeDirectories directory
  .change (·.write (Files.joinText directory errorFileName) (errorContent trace failure))

/-- Tells of a failure. -/
def tell (trace : Text → List String) (options : Options) (failure : Failure) :
    Job Failure Unit :=
  match options.reportDirectory with
  | none => Job.print ["JNI Lens signature pass failed"]
  | some directory => do
    attempt (Job.onTree (writeError trace directory failure))
    Job.print ["JNI Lens signature pass failed; see " ++ Files.joinText directory errorFileName]

/-- The pass, with the failure told if there is one. -/
def runTold (desk : Desk) (options : Options) (methodsPath : String) : Job Failure Unit := do
  tryCatch (runPass desk options methodsPath) fun failure => do
    tell desk.runtime.trace options failure
    throw failure
  Job.print ["JNI Lens signature pass complete"]

/-- Asks the user for the methods file. -/
def askMethods (desk : Desk) : Job Failure String := do
  Job.record (.askFile "Select method argument file" "Open")
  match desk.chosenFile with
  | some path => return path
  | none => throw .noChoice

/-- Runs the script. -/
def run (desk : Desk) (args : List String) : Job Failure Unit := do
  let (options, lines) := Options.ofArgs args
  Job.print lines
  if options.help then Job.print Options.usage
  else match options.methodsPath with
    | some methodsPath => runTold desk options methodsPath
    | none =>
      if desk.headless then
        Job.print ("Methods file required in headless mode." :: Options.usage)
      else do
        let methodsPath ← askMethods desk
        runTold desk options methodsPath

end JniSignatures.Script
