import JniSignatures.Files.Fault
import JniSignatures.Json.Reader
import JniSignatures.Json.Value
import JniSignatures.Table.Library
/-!
# What the checker cannot diagnose

Some malformed reports end the check with a failure of its own instead of a diagnosis: bytes that are
not UTF-8, integers of too many digits, too much nesting, values of a kind that an operation does not
take, and fact tables that cannot be read.
-/

namespace JniSignatures

/-- The name of a kind of values in messages. -/
def Json.Kind.word : Json.Kind → String
  | .null => "NoneType"
  | .bool => "bool"
  | .int => "int"
  | .float => "float"
  | .string => "str"
  | .array => "list"
  | .object => "dict"

namespace Audit

/-- Why a check fails. -/
inductive Fault where
  | files (fault : Files.Fault)
  | undecodable (refusal : Text.Utf8.Refusal)
  | longInt (digits : Nat)
  | tooDeep (container : Json.Container)
  /-- The report is no object. -/
  | noFields (kind : Json.Kind)
  /-- A status that cannot be counted. -/
  | notCountable (kind : Json.Kind)
  /-- A list of paths that cannot be gone through. -/
  | notIterable (kind : Json.Kind)
  /-- A path that cannot follow a directory. -/
  | notJoinable (kind : Json.Kind)
  | table (fault : Table.Fault)
  deriving DecidableEq

namespace Fault

def message : Fault → String
  | .files fault => fault.message
  | .undecodable refusal => refusal.message
  | .longInt digits => (Document.Fault.longInt digits).message
  | .tooDeep container => (Document.Fault.tooDeep container).message
  | .noFields kind => "'" ++ kind.word ++ "' object has no attribute 'get'"
  | .notCountable kind => "unhashable type: '" ++ kind.word ++ "'"
  | .notIterable kind => "'" ++ kind.word ++ "' object is not iterable"
  | .notJoinable kind =>
    "unsupported operand type(s) for /: 'PosixPath' and '" ++ kind.word ++ "'"
  | .table fault => fault.message

def kind : Fault → Kind
  | .files fault => fault.kind
  | .undecodable _ => .unicodeDecode
  | .longInt _ => .value
  | .tooDeep _ => .recursion
  | .noFields _ => .attribute
  | .notCountable _ | .notIterable _ | .notJoinable _ => .type
  | .table fault => fault.kind

end Fault

end Audit

end JniSignatures
