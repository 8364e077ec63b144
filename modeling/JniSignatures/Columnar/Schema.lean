import JniSignatures.Columnar.Column
import JniSignatures.Columnar.Compact
import JniSignatures.Text.Utf8
/-!
# The schema of a table

The footer of a table lists the elements of its schema: first the root, and after every element its
children. `Schema.ofElements` makes a tree of columns from them. An element without children that has
a type is a column with values; its values may have a meaning, which must fit the type. Any other
element is a group, of which the only meanings are those of lists, maps and variants.
-/

namespace JniSignatures.Columnar

/-- Why the elements of a schema make no tree. -/
inductive SchemaFault where
  /-- There is no element at all. -/
  | noRoot
  /-- The root has no children, but there are more elements. -/
  | childlessRoot
  | notEnough
  | negativeChildren
  /-- A group is said to hold values with a meaning. -/
  | notOfGroups (meaning : Meaning)
  | notForGroup (meaning : Meaning)
  | notForLeaf (meaning : Meaning)
  | notForType (meaning : Meaning) (type : Physical)
  /-- An old name of a meaning that only certain types can have. -/
  | onlyFor (word types : String)
  | notForValues (word : String)
  | badPrecision (value : Int)
  | badScale (value : Int)
  | scaleAbove (scale precision : Int)
  | badLength (value : Int)
  | precisionTooLow
  | scaleOutOfRange
  | noTimeUnit (meaning : String)
  | bitWidth
  /-- The orders of the columns are not as many as the columns. -/
  | orders
  deriving DecidableEq

def SchemaFault.message : SchemaFault → String
  | .noRoot => "Empty file schema (no root)"
  | .childlessRoot => "Parquet schema had multiple nodes but root had no children"
  | .notEnough => "Malformed Parquet schema: not enough elements"
  | .negativeChildren => "Malformed Parquet schema: negative number of children"
  | .notOfGroups meaning => "Invalid logical type: " ++ meaning.text
  | .notForGroup meaning => "Logical type " ++ meaning.text ++ " can not be applied to group node"
  | .notForLeaf meaning =>
    "Nested logical type " ++ meaning.text ++ " can not be applied to non-group node"
  | .notForType meaning type =>
    meaning.text ++ " can not be applied to primitive type " ++ type.word
  | .onlyFor word types => word ++ " can only annotate " ++ types
  | .notForValues word => word ++ " can not be applied to a primitive type"
  | .badPrecision value =>
    "Invalid DECIMAL precision: " ++ toString value ++
      ". Precision must be a number between 1 and 38 inclusive"
  | .badScale value =>
    "Invalid DECIMAL scale: " ++ toString value ++
      ". Scale must be a number between 0 and precision inclusive"
  | .scaleAbove scale precision =>
    "Invalid DECIMAL scale " ++ toString scale ++ " cannot be greater than precision " ++
      toString precision
  | .badLength value => "Invalid FIXED_LEN_BYTE_ARRAY length: " ++ toString value
  | .precisionTooLow => "Precision must be greater than or equal to 1 for Decimal logical type"
  | .scaleOutOfRange =>
    "Scale must be a non-negative integer that does not exceed precision for Decimal logical type"
  | .noTimeUnit meaning =>
    "TimeUnit must be one of MILLIS, MICROS, or NANOS for " ++ meaning ++ " logical type"
  | .bitWidth => "Bit width must be exactly 8, 16, 32, or 64 for Int logical type"
  | .orders => "Malformed schema: not enough ColumnOrder values"

/-! ## Elements -/

/-- An element of a schema as it is listed. -/
structure Element where
  name : List UInt8
  type? : Option Int
  /-- How many bytes a value has, if their number is fixed. -/
  length : Int
  repetition : Int
  children : Int
  /-- The meaning by its old number. -/
  oldMeaning? : Option Int
  scale : Int
  precision : Int
  /-- The meaning by its new record, of which only one field is there. -/
  meaning? : Option Record

/-- A decimal number of a precision and a scale. -/
def Meaning.ofDecimal (precision scale : Int) : Except SchemaFault Meaning :=
  if precision < 1 then .error .precisionTooLow
  else if scale < 0 ∨ precision < scale then .error .scaleOutOfRange
  else .ok (.decimal precision scale)

/-- The old names of meanings, by their numbers. -/
def oldWords : List String :=
  ["UTF8", "MAP", "MAP_KEY_VALUE", "LIST", "ENUM", "DECIMAL", "DATE", "TIME_MILLIS", "TIME_MICROS",
    "TIMESTAMP_MILLIS", "TIMESTAMP_MICROS", "UINT_8", "UINT_16", "UINT_32", "UINT_64", "INT_8",
    "INT_16", "INT_32", "INT_64", "JSON", "BSON", "INTERVAL"]

/-- The old name of a number. -/
def oldWord (number : Int) : String :=
  if number < 0 then "UNKNOWN" else (oldWords[number.toNat]?).getD "UNKNOWN"

/-- The meaning of an old name. -/
def Meaning.ofOld (word : String) (precision scale : Int) : Except SchemaFault Meaning :=
  match word with
  | "UTF8" => .ok .string
  | "MAP" | "MAP_KEY_VALUE" => .ok .map
  | "LIST" => .ok .list
  | "ENUM" => .ok .enumerated
  | "DECIMAL" => Meaning.ofDecimal precision scale
  | "DATE" => .ok .date
  | "TIME_MILLIS" => .ok (.time true .milliseconds)
  | "TIME_MICROS" => .ok (.time true .microseconds)
  | "TIMESTAMP_MILLIS" => .ok (.timestamp true .milliseconds true)
  | "TIMESTAMP_MICROS" => .ok (.timestamp true .microseconds true)
  | "UINT_8" => .ok (.int 8 false)
  | "UINT_16" => .ok (.int 16 false)
  | "UINT_32" => .ok (.int 32 false)
  | "UINT_64" => .ok (.int 64 false)
  | "INT_8" => .ok (.int 8 true)
  | "INT_16" => .ok (.int 16 true)
  | "INT_32" => .ok (.int 32 true)
  | "INT_64" => .ok (.int 64 true)
  | "JSON" => .ok .json
  | "BSON" => .ok .bson
  | "INTERVAL" => .ok .interval
  | _ => .ok .undefined

/-- The unit that a record names by the only field it has. -/
def unitOf (record : Record) : Option TimeUnit :=
  if (record.lookup 1).isSome then some .milliseconds
  else if (record.lookup 2).isSome then some .microseconds
  else if (record.lookup 3).isSome then some .nanoseconds
  else none

/-- The name of the system of coordinates in a record. -/
def systemOf (record : Record) : String :=
  String.ofList (Text.Utf8.decodeReplacing (record.bytes 1))

/-- The meaning of a new record. -/
def Meaning.ofRecord (record : Record) : Except SchemaFault Meaning :=
  let has (number : Nat) : Bool := (record.lookup number).isSome
  let part (number : Nat) : Record := (record.record? number).getD []
  if has 1 then .ok .string
  else if has 2 then .ok .map
  else if has 3 then .ok .list
  else if has 4 then .ok .enumerated
  else if has 5 then Meaning.ofDecimal ((part 5).integer 2) ((part 5).integer 1)
  else if has 6 then .ok .date
  else if has 7 then
    match unitOf (((part 7).record? 2).getD []) with
    | some unit => .ok (.time ((part 7).isTrue 1) unit)
    | none => .error (.noTimeUnit "Time")
  else if has 8 then
    match unitOf (((part 8).record? 2).getD []) with
    | some unit => .ok (.timestamp ((part 8).isTrue 1) unit false)
    | none => .error (.noTimeUnit "Timestamp")
  else if has 10 then
    if [8, 16, 32, 64].contains ((part 10).integer 1) then
      .ok (.int ((part 10).integer 1) ((part 10).isTrue 2))
    else .error .bitWidth
  else if has 11 then .ok .null
  else if has 12 then .ok .json
  else if has 13 then .ok .bson
  else if has 14 then .ok .uuid
  else if has 15 then .ok .float16
  else if has 16 then .ok .variant
  else if has 17 then .ok (.geometry (systemOf (part 17)))
  else if has 18 then .ok (.geography (systemOf (part 18)) (.ofCode ((part 18).integer 2)))
  else .ok .undefined

namespace Element

/-- The group of columns that an element stands for. -/
def group (e : Element) (children : List Column) : Except SchemaFault Column :=
  match e.meaning?, e.oldMeaning? with
  | some record, _ => do
    let meaning ← Meaning.ofRecord record
    if meaning.isNested then return .group e.name e.repetition meaning children
    else .error (.notForGroup meaning)
  | none, some number => do
    let meaning ← Meaning.ofOld (oldWord number) (-1) (-1)
    if meaning.isNested then return .group e.name e.repetition meaning children
    else .error (.notOfGroups meaning)
  | none, none => .ok (.group e.name e.repetition .plain children)

/-- Checks that an old name of a meaning can stand with a type. -/
def checkOld (e : Element) (type : Physical) (word : String) : Except SchemaFault Unit :=
  let only (fits : Bool) (types : String) : Except SchemaFault Unit :=
    if fits then .ok () else .error (.onlyFor word types)
  if ["UTF8", "JSON", "BSON", "ENUM"].contains word then
    only (type = .byteArray) "BYTE_ARRAY fields"
  else if word = "DECIMAL" then do
    only ([.int32, .int64, .byteArray, .fixedBytes].contains type) "INT32, INT64, BYTE_ARRAY, and FIXED"
    if e.precision ≤ 0 then .error (.badPrecision e.precision)
    else if e.scale < 0 then .error (.badScale e.scale)
    else if e.precision < e.scale then .error (.scaleAbove e.scale e.precision)
    else .ok ()
  else if ["DATE", "TIME_MILLIS", "UINT_8", "UINT_16", "UINT_32", "INT_8", "INT_16",
      "INT_32"].contains word then
    only (type = .int32) "INT32"
  else if ["TIME_MICROS", "TIMESTAMP_MILLIS", "TIMESTAMP_MICROS", "UINT_64", "INT_64"].contains word then
    only (type = .int64) "INT64"
  else if word = "INTERVAL" then
    only (type = .fixedBytes && e.length = 12) "FIXED_LEN_BYTE_ARRAY(12)"
  else .error (.notForValues word)

/-- What the values of an element mean. -/
def leafMeaning (e : Element) (type : Physical) : Except SchemaFault Meaning :=
  match e.meaning?, e.oldMeaning? with
  | some record, _ => do
    let meaning ← Meaning.ofRecord record
    if meaning.isNested then .error (.notForLeaf meaning)
    else if meaning.fits type e.length then return meaning
    else .error (.notForType meaning type)
  | none, some number => do
    e.checkOld type (oldWord number)
    Meaning.ofOld (oldWord number) e.precision e.scale
  | none, none => .ok .plain

/-- The column with values that an element stands for. -/
def leaf (e : Element) (type : Physical) : Except SchemaFault Column := do
  let meaning ← e.leafMeaning type
  if type = .fixedBytes ∧ e.length ≤ 0 then .error (.badLength e.length)
  else return .leaf e.name e.repetition type meaning

end Element

/-- The columns that a number of elements at the front of a list stand for, with the elements that are
left. There are fewer elements than `fuel`. -/
def columnsFrom : (fuel count : Nat) → List Element → Except SchemaFault (List Column × List Element)
  | _, 0, elements => .ok ([], elements)
  | 0, _ + 1, _ => .error .notEnough
  | _ + 1, _ + 1, [] => .error .notEnough
  | fuel + 1, count + 1, e :: rest => do
    if e.children < 0 then .error .negativeChildren
    let (column, rest) ← match e.children, e.type? with
      | 0, some type => (e.leaf (.ofCode type)).map fun column => (column, rest)
      | _, _ => do
        let (children, rest) ← columnsFrom fuel e.children.toNat rest
        (e.group children).map fun column => (column, rest)
    let (others, rest) ← columnsFrom fuel count rest
    return (column :: others, rest)

/-- The schema of a table: its columns. -/
structure Schema where
  columns : List Column

namespace Schema

/-- The schema that a list of elements stands for. -/
def ofElements (elements : List Element) : Except SchemaFault Schema :=
  match elements with
  | [] => .error .noRoot
  | root :: rest =>
    if root.children = 0 then
      if rest.isEmpty then (root.group []).map fun _ => ⟨[]⟩ else .error .childlessRoot
    else if root.children < 0 then .error .negativeChildren
    else do
      let (columns, _) ← columnsFrom elements.length root.children.toNat rest
      let _ ← root.group columns
      return ⟨columns⟩

/-- How many columns with values there are. -/
def leaves (schema : Schema) : Nat :=
  Column.leavesOf schema.columns

end Schema

end JniSignatures.Columnar
