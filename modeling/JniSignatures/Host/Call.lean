import JniSignatures.Host.Function
import JniSignatures.Text.CodePoint
/-!
# Calls to the host

The host is the reverse engineering tool that keeps the program, its functions and the archives of
types. Every call to it that matters is recorded, before it can fail. A function is named by its
position in the program, a parameter by its position in the function.
-/

namespace JniSignatures

/-- How the host is started on a binary. -/
structure Start where
  binary : String
  projectDirectory : String
  projectName : String
  analyze : Bool
  programName : String
  installDirectory : String
  deriving DecidableEq

/-- A call to the host. -/
inductive Call where
  /-- Lists the functions of the program. -/
  | listFunctions
  /-- Asks the archive for the type at a path. -/
  | lookUpType (path : Text)
  /-- Replaces the parameters and the return type of a function. -/
  | replaceSignature (function : Nat) (returnType : String) (params : List Parameter)
  | setParameterName (function parameter : Nat) (name : String)
  | setParameterType (function parameter : Nat) (type : String)
  | setReturnType (function : Nat) (type : String)
  /-- Asks a module of the host for one of its data files. -/
  | findModuleFile (owner file : String)
  /-- Opens an archive through the tool, which then shows it. -/
  | openInTool (path : String)
  /-- Opens an archive for the caller alone. -/
  | openFile (path : String)
  | close (archive : String)
  /-- Asks the user for a file. -/
  | askFile (title button : String)
  | start (options : Start)
  | runScript (script : String) (args : List String)
  | scriptFailed
  | stop
  deriving DecidableEq

namespace Call

/-- The function that a call changes, if it is of the kind that changes one. -/
def target? : Call → Option Nat
  | .replaceSignature function _ _ => some function
  | .setParameterName function _ _ => some function
  | .setParameterType function _ _ => some function
  | .setReturnType function _ => some function
  | _ => none

end Call

end JniSignatures
