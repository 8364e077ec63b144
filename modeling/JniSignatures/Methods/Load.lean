import JniSignatures.Files.Tree
import JniSignatures.Json.Reader
import JniSignatures.Methods.Method
/-!
# Loading a methods file
-/

namespace JniSignatures.Method

/-- Why a methods file cannot be loaded. -/
inductive LoadFault where
  | unreadable (path : String) (errno : Files.Errno)
  | nullCharacter
  | undecodable (refusal : Text.Utf8.Refusal)
  | malformed (path : String) (fault : Json.Fault) (place : Text.Place)
  | longInt (digits : Nat)
  | tooDeep (container : Json.Container)
  | schema (fault : Fault)
  deriving DecidableEq

def LoadFault.message : LoadFault → String
  | .unreadable path errno =>
    "cannot read methods file " ++ path ++ ": " ++ (Files.Fault.refused errno path).message
  | .nullCharacter => Files.Fault.nullCharacter.message
  | .undecodable refusal => refusal.message
  | .malformed path fault place =>
    "invalid JSON in methods file " ++ path ++ ": " ++ (Document.Fault.malformed fault place).message
  | .longInt digits => (Document.Fault.longInt digits).message
  | .tooDeep container => (Document.Fault.tooDeep container).message
  | .schema fault => fault.message

def LoadFault.kind : LoadFault → Kind
  | .unreadable _ _ => .methodsFile
  | .nullCharacter => Files.Fault.nullCharacter.kind
  | .undecodable _ => .unicodeDecode
  | .malformed _ _ _ => .methodsFile
  | .longInt _ => .value
  | .tooDeep _ => .recursion
  | .schema fault => fault.kind

/-- The methods of the file at a path, in which `depth` containers may be open at a time. -/
def load (depth : Nat) (tree : Files.Tree) (path : String) : Except LoadFault (List Method) :=
  match tree.read path with
  | .error (.refused errno _) => .error (.unreadable path errno)
  | .error .nullCharacter => .error .nullCharacter
  | .ok content =>
    match Document.read depth content.toBytes with
    | .error (.undecodable refusal) => .error (.undecodable refusal)
    | .error (.malformed fault place) => .error (.malformed path fault place)
    | .error (.longInt digits) => .error (.longInt digits)
    | .error (.tooDeep container) => .error (.tooDeep container)
    | .ok document =>
      match ofDocument document with
      | .error fault => .error (.schema fault)
      | .ok methods => .ok methods

end JniSignatures.Method
