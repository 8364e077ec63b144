import JniSignatures.Json.Value
import JniSignatures.Kind
import JniSignatures.Text.Message
/-!
# Declared native methods

The methods that a class file declares as native come in a JSON document: an object whose field
`methods` lists one object per method. `Method.ofDocument` accepts exactly the documents of that
shape; of a document that has another one it names the first entry at fault, and in it the first
field. A field that is null counts as absent.
-/

namespace JniSignatures

/-- A declared native method. -/
structure Method where
  qualifiedName : Text
  argumentTypes : List Text
  returnType : Text
  isStatic : Bool
  deriving DecidableEq

namespace Method

/-- What is wrong with an entry. -/
inductive EntryFault where
  | notObject
  | missingText (key : String)
  | argumentTypes
  | isStatic
  deriving DecidableEq

/-- What is wrong with a document. -/
inductive Fault where
  | rootNotObject
  | methodsNotList
  | entry (position : Nat) (fault : EntryFault)
  deriving DecidableEq

def Fault.message : Fault → String
  | .rootNotObject => "methods file root must be a JSON object"
  | .methodsNotList => "'methods' must be a list"
  | .entry position fault =>
    let name := "methods[" ++ toString position ++ "]"
    match fault with
    | .notObject => name ++ " is not an object"
    | .missingText key => name ++ " missing string field " ++ Text.quoted key
    | .argumentTypes => name ++ ".argumentTypes must be a list of strings"
    | .isStatic => name ++ ".isStatic must be a boolean"

def Fault.kind (_ : Fault) : Kind := .methodsFile

/-- A field of an entry that must be a text with something in it. -/
def textField (entry : Json) (key : String) : Except EntryFault Text :=
  match entry.get? key with
  | some (.string text) => if text = "" then .error (.missingText key) else .ok text
  | _ => .error (.missingText key)

/-- The items of an array of texts. -/
def texts? : List Json → Option (List Text)
  | [] => some []
  | .string text :: rest => (texts? rest).map (text :: ·)
  | _ :: _ => none

/-- The argument types of an entry. -/
def argumentTypesField (entry : Json) : Except EntryFault (List Text) :=
  match entry.get? "argumentTypes" with
  | none | some .null => .ok []
  | some (.array items) =>
    match texts? items with
    | some types => .ok types
    | none => .error .argumentTypes
  | some _ => .error .argumentTypes

/-- Whether the method of an entry is static. -/
def staticField (entry : Json) : Except EntryFault Bool :=
  match entry.get? "isStatic" with
  | none | some .null => .ok false
  | some (.bool value) => .ok value
  | some _ => .error .isStatic

/-- The method of an entry. -/
def ofEntry (entry : Json) : Except EntryFault Method :=
  match entry with
  | .object _ => do
    let qualifiedName ← textField entry "methodName"
    let returnType ← textField entry "returnType"
    let argumentTypes ← argumentTypesField entry
    let isStatic ← staticField entry
    return { qualifiedName, argumentTypes, returnType, isStatic }
  | _ => .error .notObject

/-- The methods of the entries, the first of which has the given position. -/
def ofEntries (position : Nat) : List Json → Except Fault (List Method)
  | [] => .ok []
  | entry :: rest =>
    match ofEntry entry with
    | .error fault => .error (.entry position fault)
    | .ok method => (ofEntries (position + 1) rest).map (method :: ·)

/-- The methods of a document. -/
def ofDocument (document : Json) : Except Fault (List Method) :=
  match document with
  | .object _ =>
    match document.get? "methods" with
    | none | some .null => .ok []
    | some (.array entries) => ofEntries 0 entries
    | some _ => .error .methodsNotList
  | _ => .error .rootNotObject

end Method

end JniSignatures
