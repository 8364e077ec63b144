import JniSignatures.Kind
import JniSignatures.Columnar.Meaning
/-!
# Columns

A table has columns with values, and groups of columns. `Column.check` tells whether the values of a
column can be had: a type must be known, and a group that is a list or a map must have the form of
one.
-/

namespace JniSignatures.Columnar

/-- A column of a table, or a group of columns. -/
inductive Column where
  | leaf (name : List UInt8) (repetition : Int) (type : Physical) (meaning : Meaning)
  | group (name : List UInt8) (repetition : Int) (meaning : Meaning) (children : List Column)

namespace Column

mutual

/-- How many columns with values there are. -/
def leaves : Column → Nat
  | .leaf _ _ _ _ => 1
  | .group _ _ _ children => leavesOf children

/-- How many columns with values there are in a list. -/
def leavesOf : List Column → Nat
  | [] => 0
  | column :: rest => column.leaves + leavesOf rest

end

def name : Column → List UInt8
  | .leaf name _ _ _ => name
  | .group name _ _ _ => name

def isRepeated : Column → Bool
  | .leaf _ repetition _ _ => repetition = 2
  | .group _ repetition _ _ => repetition = 2

def isRequired : Column → Bool
  | .leaf _ repetition _ _ => repetition = 0
  | .group _ repetition _ _ => repetition = 0

end Column

/-- Why the values of a column cannot be had. -/
inductive ColumnFault where
  | unknownType
  | precisionRange (value : Int)
  | listChildren
  | listRepeated
  | listOfOne
  | mapChildren
  | mapRepeated
  | mapOfOne
  | entryNoGroup
  | entryChildren (count : Nat)
  | keyNotRequired
  deriving DecidableEq

def ColumnFault.message : ColumnFault → String
  | .unknownType => "Invalid physical column type: UNKNOWN"
  | .precisionRange value => "Decimal precision out of range [1, 76]: " ++ toString value
  | .listChildren => "LIST-annotated groups must have a single child."
  | .listRepeated => "LIST-annotated groups must not be repeated."
  | .listOfOne => "Non-repeated nodes in a LIST-annotated group are not supported."
  | .mapChildren => "MAP-annotated groups must have a single child."
  | .mapRepeated => "MAP-annotated groups must not be repeated."
  | .mapOfOne => "Non-repeated key value in a MAP-annotated group are not supported."
  | .entryNoGroup => "Key-value node must be a group."
  | .entryChildren count => "Key-value map node must have 1 or 2 child elements. Found: " ++ toString count
  | .keyNotRequired => "Map keys must be annotated as required."

def ColumnFault.kind : ColumnFault → Kind
  | .unknownType => .system
  | _ => .table

namespace Column

/-- Checks the entries of a map. -/
def checkEntry : Column → Except ColumnFault Unit
  | .leaf _ _ _ _ => .error .entryNoGroup
  | .group _ _ _ [key] | .group _ _ _ [key, _] =>
    if key.isRequired then .ok () else .error .keyNotRequired
  | .group _ _ _ children => .error (.entryChildren children.length)

/-- Checks a group by what it means. -/
def checkGroup (repeated : Bool) (meaning : Meaning) (children : List Column) :
    Except ColumnFault Unit :=
  match meaning, children with
  | .list, [child] =>
    if repeated then .error .listRepeated
    else if child.isRepeated then .ok () else .error .listOfOne
  | .list, _ => .error .listChildren
  | .map, [child] =>
    if repeated then .error .mapRepeated
    else if child.isRepeated then child.checkEntry else .error .mapOfOne
  | .map, _ => .error .mapChildren
  | _, _ => .ok ()

mutual

/-- Checks that the values of a column can be had. -/
def check : Column → Except ColumnFault Unit
  | .leaf _ _ type meaning =>
    match type, meaning with
    | _, .null | _, .undefined => .ok ()
    | .unknown, _ => .error .unknownType
    | _, .decimal precision _ => if 76 < precision then .error (.precisionRange precision) else .ok ()
    | _, _ => .ok ()
  | .group _ repetition meaning children => do
    checkGroup (repetition = 2) meaning children
    checkAll children

/-- Checks that the values of all columns of a list can be had. -/
def checkAll : List Column → Except ColumnFault Unit
  | [] => .ok ()
  | column :: rest => do
    column.check
    checkAll rest

end

end Column

end JniSignatures.Columnar
