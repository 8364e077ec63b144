import JniSignatures.Text.CodePoint
/-!
# Kinds of failures

Every failure has a kind besides its message. The error file and those who read it know a kind by its
name. Four kinds are the pass's own and are written there with the name of their family in front.
-/

namespace JniSignatures

/-- The kind of a failure. -/
inductive Kind where
  /-- A symbol that would need the argument types. -/
  | unsupportedMangling
  /-- A type that the archive lacks. -/
  | typeResolution
  /-- The archive of types cannot be had. -/
  | catalogSetup
  /-- The methods file cannot be used. -/
  | methodsFile
  | value
  | type
  | attribute
  | unicodeDecode
  | unicodeEncode
  | overflow
  /-- Too much is nested. -/
  | recursion
  /-- A fact table cannot be read or written. -/
  | table
  | fileNotFound
  | fileExists
  | notADirectory
  | isADirectory
  | system
  /-- The host refuses a call. -/
  | host
  /-- A kind of which only the name is known, which is a single line. -/
  | other (name : String) (single : '\n' ∉ name.toList)
  deriving DecidableEq

namespace Kind

def name : Kind → String
  | .unsupportedMangling => "UnsupportedMangling"
  | .typeResolution => "TypeResolutionError"
  | .catalogSetup => "CatalogSetupError"
  | .methodsFile => "MethodsFileError"
  | .value => "ValueError"
  | .type => "TypeError"
  | .attribute => "AttributeError"
  | .unicodeDecode => "UnicodeDecodeError"
  | .unicodeEncode => "UnicodeEncodeError"
  | .overflow => "OverflowError"
  | .recursion => "RecursionError"
  | .table => "ArrowInvalid"
  | .fileNotFound => "FileNotFoundError"
  | .fileExists => "FileExistsError"
  | .notADirectory => "NotADirectoryError"
  | .isADirectory => "IsADirectoryError"
  | .system => "OSError"
  | .host => "HostError"
  | .other name _ => name

/-- Whether the kind is the pass's own. -/
def isOwn : Kind → Bool
  | .unsupportedMangling | .typeResolution | .catalogSetup | .methodsFile => true
  | _ => false

/-- The name of the kind in the error file. -/
def fullName (k : Kind) : String :=
  if k.isOwn then "jni_errors." ++ k.name else k.name

/-- The line that tells a failure of the kind in the error file. -/
def line (k : Kind) (message : Text) : Text :=
  if message = "" then k.fullName else k.fullName ++ ": " ++ message

end Kind

end JniSignatures
