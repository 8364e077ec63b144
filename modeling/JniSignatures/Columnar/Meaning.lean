/-!
# What the values of a column mean

The values of a column are kept in one of a few types, and have a meaning besides. `Meaning.fits` tells
in which types values of a meaning can be kept; some meanings are those of groups of columns and fit
no type. The texts of meanings are those of messages.
-/

namespace JniSignatures.Columnar

/-- How the values of a column are kept. -/
inductive Physical where
  | boolean | int32 | int64 | int96 | float | double | byteArray | fixedBytes | unknown
  deriving DecidableEq

namespace Physical

def ofCode : Int → Physical
  | 0 => .boolean
  | 1 => .int32
  | 2 => .int64
  | 3 => .int96
  | 4 => .float
  | 5 => .double
  | 6 => .byteArray
  | 7 => .fixedBytes
  | _ => .unknown

def word : Physical → String
  | .boolean => "BOOLEAN"
  | .int32 => "INT32"
  | .int64 => "INT64"
  | .int96 => "INT96"
  | .float => "FLOAT"
  | .double => "DOUBLE"
  | .byteArray => "BYTE_ARRAY"
  | .fixedBytes => "FIXED_LEN_BYTE_ARRAY"
  | .unknown => "UNKNOWN"

end Physical

inductive TimeUnit where
  | milliseconds | microseconds | nanoseconds
  deriving DecidableEq

def TimeUnit.word : TimeUnit → String
  | .milliseconds => "milliseconds"
  | .microseconds => "microseconds"
  | .nanoseconds => "nanoseconds"

/-- How two points on a globe are joined. -/
inductive Edges where
  | spherical | vincenty | thomas | andoyer | karney
  deriving DecidableEq

namespace Edges

def ofCode : Int → Edges
  | 1 => .vincenty
  | 2 => .thomas
  | 3 => .andoyer
  | 4 => .karney
  | _ => .spherical

def word : Edges → String
  | .spherical => "spherical"
  | .vincenty => "vincenty"
  | .thomas => "thomas"
  | .andoyer => "andoyer"
  | .karney => "karney"

end Edges

/-- What values mean. -/
inductive Meaning where
  | plain
  | string
  | map
  | list
  | enumerated
  | decimal (precision scale : Int)
  | date
  | time (utc : Bool) (unit : TimeUnit)
  | timestamp (utc : Bool) (unit : TimeUnit) (isOld : Bool)
  | interval
  | int (bits : Int) (isSigned : Bool)
  | null
  | json
  | bson
  | uuid
  | float16
  | variant
  | geometry (system : String)
  | geography (system : String) (edges : Edges)
  | undefined
  deriving DecidableEq

namespace Meaning

def truthWord (b : Bool) : String :=
  if b then "true" else "false"

def text : Meaning → String
  | .plain => "None"
  | .string => "String"
  | .map => "Map"
  | .list => "List"
  | .enumerated => "Enum"
  | .decimal precision scale =>
    "Decimal(precision=" ++ toString precision ++ ", scale=" ++ toString scale ++ ")"
  | .date => "Date"
  | .time utc unit =>
    "Time(isAdjustedToUTC=" ++ truthWord utc ++ ", timeUnit=" ++ unit.word ++ ")"
  | .timestamp utc unit isOld =>
    "Timestamp(isAdjustedToUTC=" ++ truthWord utc ++ ", timeUnit=" ++ unit.word ++
      ", is_from_converted_type=" ++ truthWord isOld ++ ", force_set_converted_type=false)"
  | .interval => "Interval"
  | .int bits isSigned =>
    "Int(bitWidth=" ++ toString bits ++ ", isSigned=" ++ truthWord isSigned ++ ")"
  | .null => "Null"
  | .json => "JSON"
  | .bson => "BSON"
  | .uuid => "UUID"
  | .float16 => "Float16"
  | .variant => "Variant"
  | .geometry system => "Geometry(crs=" ++ system ++ ")"
  | .geography system edges => "Geography(crs=" ++ system ++ ", algorithm=" ++ edges.word ++ ")"
  | .undefined => "Undefined"

/-- Whether the meaning is one of groups. -/
def isNested : Meaning → Bool
  | .map | .list | .variant => true
  | _ => false

/-- The greatest number of bytes that a decimal number may have. -/
def maxDecimalBytes : Int := 891723282

/-- The greatest precision of a decimal number in so many bytes. -/
def digitsOfBytes (length : Int) : Int :=
  30102999566398120 * (8 * length - 1) / 100000000000000000

/-- Whether a meaning fits a type, whose values have `length` bytes if their number is fixed. -/
def fits (type : Physical) (length : Int) : Meaning → Bool
  | .plain | .null | .undefined => true
  | .string | .enumerated | .json | .bson | .geometry _ | .geography _ _ => type = .byteArray
  | .date => type = .int32
  | .decimal precision _ =>
    match type with
    | .int32 => precision ≤ 9
    | .int64 => precision ≤ 18
    | .byteArray => true
    | .fixedBytes => 0 < length && length ≤ maxDecimalBytes && precision ≤ digitsOfBytes length
    | _ => false
  | .time _ unit => if unit = .milliseconds then type = .int32 else type = .int64
  | .timestamp _ _ _ => type = .int64
  | .int bits _ => if bits = 64 then type = .int64 else type = .int32
  | .interval => type = .fixedBytes && length = 12
  | .uuid => type = .fixedBytes && length = 16
  | .float16 => type = .fixedBytes && length = 2
  | .map | .list | .variant => false

end Meaning

end JniSignatures.Columnar
