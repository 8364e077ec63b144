import JniSignatures.Kind
import JniSignatures.Text.Message
/-!
# Why file operations fail
-/

namespace JniSignatures.Files

/-- Why the system refuses an operation. -/
inductive Errno where
  | noEntry
  | exists
  | notDirectory
  | isDirectory
  | nameTooLong
  deriving DecidableEq

namespace Errno

def number : Errno → Nat
  | .noEntry => 2
  | .exists => 17
  | .notDirectory => 20
  | .isDirectory => 21
  | .nameTooLong => 36

def message : Errno → String
  | .noEntry => "No such file or directory"
  | .exists => "File exists"
  | .notDirectory => "Not a directory"
  | .isDirectory => "Is a directory"
  | .nameTooLong => "File name too long"

def kind : Errno → Kind
  | .noEntry => .fileNotFound
  | .exists => .fileExists
  | .notDirectory => .notADirectory
  | .isDirectory => .isADirectory
  | .nameTooLong => .system

end Errno

/-- Why an operation fails: the system refuses it for a text, or the text holds a null character and
never reaches the system. -/
inductive Fault where
  | refused (errno : Errno) (text : String)
  | nullCharacter
  deriving DecidableEq

def Fault.message : Fault → String
  | .refused errno text =>
    "[Errno " ++ toString errno.number ++ "] " ++ errno.message ++ ": " ++ Text.quoted text
  | .nullCharacter => "embedded null byte"

def Fault.kind : Fault → Kind
  | .refused errno _ => errno.kind
  | .nullCharacter => .value

end JniSignatures.Files
