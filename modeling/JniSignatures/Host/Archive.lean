import JniSignatures.Host.Desk
import JniSignatures.Host.Workspace
/-!
# Finding the archive of types

The archive of the interface's types may be open in the tool already; the first one of that name is
taken. Otherwise a file is opened: the one that is given, or else the one that comes with the module.
With a service it is opened through the tool, without one for the run alone.
-/

namespace JniSignatures.Archive

/-- The name of the archive. -/
def standardName : String := "jni_all"

/-- The file of the archive, in the module that brings it. -/
def standardFile : String := "jni_all.gdt"

def moduleName : String := "JNIAnalyzer"

/-- Why there is no archive. -/
inductive Fault where
  | notInModule
  | notFound (path : String)
  | notOpened (path message : String)
  deriving DecidableEq

def Fault.message : Fault → String
  | .notInModule =>
    standardFile ++ " not found in module " ++ moduleName ++ "; pass archive=<path>"
  | .notFound path => "JNI type archive not found: " ++ path
  | .notOpened path message => "Failed to open JNI type archive " ++ path ++ ": " ++ message

def Fault.kind (_ : Fault) : Kind := .catalogSetup

/-- The first archive of a name among those that are open in the tool. -/
def findOpen (service : Option ArchiveService) (name : String) : Option Archive := do
  let listed ← (← service).listed
  let found ← listed.find? (·.name = some name)
  return found.archive

/-- The path of the file to open. -/
def choosePath (desk : Desk) (given : Option String) : Job Fault String :=
  match given.filter (· ≠ "") with
  | some path => return path
  | none => do
    Job.record (.findModuleFile moduleName standardFile)
    match desk.moduleFile with
    | some path => return path
    | none => throw .notInModule

/-- Opens the archive of a file. -/
def openPath (desk : Desk) (path : String) : Job Fault Archive := do
  Job.record (if desk.service.isSome then .openInTool path else .openFile path)
  match desk.openRefusal with
  | some message => throw (.notOpened path message)
  | none =>
    let manner := if desk.service.isSome then "service:" else "file:"
    return ⟨manner ++ path, desk.types⟩

/-- The archive of the interface's types. -/
def acquire (desk : Desk) (given : Option String) : Job Fault Archive :=
  match findOpen desk.service standardName with
  | some archive => return archive
  | none => do
    let path ← choosePath desk given
    if (← get).tree.isFile path then openPath desk path else throw (.notFound path)

end JniSignatures.Archive
