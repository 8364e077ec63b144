import JniSignatures.Json.Writer
import JniSignatures.Text.Message
/-!
# JSON values in messages

A message shows a value on one line. A text stands bare, unless it is inside an array or an object,
where it is quoted; constants are capitalised and the absent value is `None`.
-/

namespace JniSignatures.Json

mutual

/-- A value inside another one. -/
def inner : Json → String
  | .null => "None"
  | .bool b => if b then "True" else "False"
  | .int n => toString n
  | .float x => numberLayout.render x
  | .string s => Text.quoted s
  | .array items => "[" ++ String.intercalate ", " (innerItems items) ++ "]"
  | .object fields => "\x7b" ++ String.intercalate ", " (innerFields fields) ++ "\x7d"

def innerItems : List Json → List String
  | [] => []
  | item :: items => inner item :: innerItems items

def innerFields : List (Text × Json) → List String
  | [] => []
  | (key, value) :: fields => (Text.quoted key ++ ": " ++ inner value) :: innerFields fields

end

/-- A value by itself. -/
def display : Json → Text
  | .string s => s
  | value => inner value

/-- A field's value, or what stands for a field that is absent. -/
def displayField : Option Json → Text
  | some value => display value
  | none => display .null

end JniSignatures.Json
