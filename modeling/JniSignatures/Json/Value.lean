import JniSignatures.Decimal.Binary64
import JniSignatures.Text.CodePoint
/-!
# JSON values

A document is a tree of JSON values. Integers and floating-point numbers are told apart, and the
fields of an object keep the order of their first occurrence. `Json.agrees` compares values:
numbers and booleans by their numeric value, arrays item by item, objects field by field in any
order. A value that is not a number disagrees with everything, itself included.
-/

namespace JniSignatures

open Decimal (Binary64)

/-- A JSON value. -/
inductive Json where
  | null
  | bool (value : Bool)
  | int (value : Int)
  | float (value : Binary64)
  | string (value : Text)
  | array (items : List Json)
  | object (fields : List (Text × Json))

namespace Json

instance : Inhabited Json := ⟨.null⟩

/-- A text or null. -/
def ofText? : Option Text → Json
  | some text => .string text
  | none => .null

/-- An integer or null. -/
def ofInt? : Option Int → Json
  | some n => .int n
  | none => .null

/-- An array of strings. -/
def ofStrings (strings : List String) : Json :=
  .array (strings.map fun s : String => .string s)

/-- The greatest number of digits of an integer literal. -/
def maxIntDigits : Nat := 4300

/-- The kinds of JSON values. -/
inductive Kind where
  | null | bool | int | float | string | array | object
  deriving DecidableEq

def kind : Json → Kind
  | .null => .null
  | .bool _ => .bool
  | .int _ => .int
  | .float _ => .float
  | .string _ => .string
  | .array _ => .array
  | .object _ => .object

/-- The field of an object; `none` if it has none of that name or is no object. -/
def get? (key : Text) : Json → Option Json
  | .object fields => fields.lookup key
  | _ => none

/-- A number, or a boolean in its numeric value. -/
inductive Quantity where
  | int (value : Int)
  | float (value : Binary64)

namespace Quantity

/-- Equality of values across the two kinds of numbers. -/
def agrees : Quantity → Quantity → Bool
  | .int a, .int b => a == b
  | .int a, .float y => y.agreesInt a
  | .float x, .int b => x.agreesInt b
  | .float x, .float y => x.agrees y

end Quantity

def quantity? : Json → Option Quantity
  | .bool b => some (.int (if b then 1 else 0))
  | .int n => some (.int n)
  | .float x => some (.float x)
  | _ => none

mutual

/-- Whether two values are equal as values. -/
def agrees : Json → Json → Bool
  | .null, other => other.kind == .null
  | .string a, .string b => a == b
  | .array xs, .array ys => itemsAgree xs ys
  | .object xs, .object ys => xs.length == ys.length && fieldsAgree xs ys
  | .bool b, other => other.quantity?.any (Quantity.agrees (.int (if b then 1 else 0)))
  | .int n, other => other.quantity?.any (Quantity.agrees (.int n))
  | .float x, other => other.quantity?.any (Quantity.agrees (.float x))
  | _, _ => false

/-- Whether two lists of items are equal item by item. -/
def itemsAgree : List Json → List Json → Bool
  | [], [] => true
  | x :: xs, y :: ys => agrees x y && itemsAgree xs ys
  | _, _ => false

/-- Whether each field on the left has an equal one on the right. -/
def fieldsAgree : List (Text × Json) → List (Text × Json) → Bool
  | [], _ => true
  | (k, v) :: xs, ys =>
    (match ys.lookup k with
      | some w => agrees v w
      | none => false) && fieldsAgree xs ys

end

/-- Whether the value counts as empty: null, false, a zero, or a text, array or object of nothing. -/
def isEmpty : Json → Bool
  | .null => true
  | .bool b => !b
  | .int n => n == 0
  | .float x => x.isZero
  | .string s => s.isEmpty
  | .array items => items.isEmpty
  | .object fields => fields.isEmpty

end Json

end JniSignatures
