import JniSignatures.Host.Archive
import JniSignatures.Methods.Load
import JniSignatures.Report.Save
/-!
# What can fail in a run of the script
-/

namespace JniSignatures

/-- Why a run of the script fails. -/
inductive Failure where
  | archive (fault : Archive.Fault)
  | methods (fault : Method.LoadFault)
  | action (fault : ActionFault)
  | save (fault : Report.SaveFault)
  /-- The user chooses no file. -/
  | noChoice
  deriving DecidableEq

namespace Failure

def message : Failure → Text
  | .archive fault => fault.message
  | .methods fault => fault.message
  | .action fault => fault.message
  | .save fault => fault.message
  | .noChoice => "cancelled"

def kind : Failure → Kind
  | .archive fault => fault.kind
  | .methods fault => fault.kind
  | .action fault => fault.kind
  | .save fault => fault.kind
  | .noChoice => .host

/-- The line that tells the failure in the error file. -/
def line (f : Failure) : Text :=
  f.kind.line f.message

end Failure

end JniSignatures
