import JniSignatures.Host.Session
import JniSignatures.Runtime
/-!
# The surroundings of a run

What a run finds around it when it starts and cannot change: the program that is open, whether there
is a user, the tool and the archives that are open in it, how the host answers when it is asked for a
file or told to open or close an archive, and what the run itself relies on.
-/

namespace JniSignatures

/-- An archive of types, with the label under which the host knows it. -/
structure Archive where
  label : String
  types : List (Text × String)
  deriving DecidableEq

/-- An archive that is open in the tool; the host may fail to tell its name. -/
structure OpenArchive where
  name : Option String
  archive : Archive
  deriving DecidableEq

/-- The tool's service for archives; the host may fail to list those that are open. -/
structure ArchiveService where
  listed : Option (List OpenArchive)
  deriving DecidableEq

/-- The tool in which a run is made. -/
inductive Tool where
  /-- It cannot be told which tool it is. -/
  | unknown
  | absent
  /-- A tool without a service for archives. -/
  | bare
  | serving (service : ArchiveService)
  deriving DecidableEq

/-- The service of a tool, if it can be had. -/
def Tool.service? : Tool → Option ArchiveService
  | .serving service => some service
  | .unknown | .absent | .bare => none

/-- The surroundings of a run. -/
structure Desk where
  programName : String
  headless : Bool
  tool : Tool
  /-- The types of an archive that the run opens. -/
  types : List (Text × String)
  /-- The data file that the module has, if it has one. -/
  moduleFile : Option String
  /-- The message with which opening an archive fails, if it fails. -/
  openRefusal : Option String
  /-- The message with which closing an archive fails, if it fails. -/
  closeRefusal : Option String
  /-- The file that the user chooses, if the user chooses one. -/
  chosenFile : Option String
  runtime : Runtime

/-- The service for archives, if there is a tool that has one. -/
def Desk.service (desk : Desk) : Option ArchiveService :=
  desk.tool.service?

end JniSignatures
