import JniSignatures.Json.Token
import JniSignatures.Keyed
import JniSignatures.Text.Message
import JniSignatures.Text.Utf8
/-!
# Reading JSON documents

The reader takes the tokens of a text one by one. Its state is the stack of the containers that are
open, innermost first, and what may come next. A finished value goes to the innermost container or,
if none is open, is the document. The first token that does not fit is the fault, with the place
where it starts; a broken string tells its own place. No more than `depth` containers may be open at a
time: the one that would be one too many is the fault.

`Document.read` reads a document from bytes: strict UTF-8, one line feed per line end, then JSON.
-/

namespace JniSignatures

namespace Json

/-- What was expected, or found, where the text stops being JSON. -/
inductive Fault where
  | byteOrderMark
  | value
  | key
  | colon
  | comma
  | extraData
  | string (fault : StringFault)
  deriving DecidableEq

def StringFault.message : StringFault → String
  | .unterminated => "Unterminated string starting at"
  | .control => "Invalid control character at"
  | .escape => "Invalid \\escape"
  | .unicodeEscape => "Invalid \\uXXXX escape"

def Fault.message : Fault → String
  | .byteOrderMark => "Unexpected UTF-8 BOM (decode using utf-8-sig)"
  | .value => "Expecting value"
  | .key => "Expecting property name enclosed in double quotes"
  | .colon => "Expecting ':' delimiter"
  | .comma => "Expecting ',' delimiter"
  | .extraData => "Extra data"
  | .string fault => fault.message

/-- The values that hold others. -/
inductive Container where
  | array
  | object
  deriving DecidableEq

def Container.word : Container → String
  | .array => "array"
  | .object => "object"

/-- Why a text is refused. -/
inductive Refusal where
  | malformed (fault : Fault) (offset : Nat)
  | longInt (digits : Nat)
  /-- A container within as many as may be open. -/
  | tooDeep (container : Container)
  deriving DecidableEq

/-- An open container. The items of an array are kept last first; an object waits for the value of
its last key. -/
inductive Frame where
  | array (items : List Json)
  | object (fields : List (Text × Json)) (key : Text)

/-- What may come next. -/
inductive Expected where
  | value
  /-- The first item of an array, or its end. -/
  | firstItem
  | key (fields : List (Text × Json))
  /-- The first key of an object, or its end. -/
  | firstKey
  | colon (fields : List (Text × Json)) (key : Text)
  /-- A comma or the end of the innermost container. -/
  | more (items : List Json)
  | moreFields (fields : List (Text × Json))
  /-- Nothing but the end of the text. -/
  | finish (document : Json)

/-- The reader between two tokens. The container that is being filled is told by `expected`; the
stack holds those around it. -/
structure State where
  stack : List Frame
  expected : Expected

/-- Hands a finished value to the innermost container. -/
def State.deliver (value : Json) : List Frame → State
  | [] => ⟨[], .finish value⟩
  | .array items :: stack => ⟨stack, .more (value :: items)⟩
  | .object fields key :: stack => ⟨stack, .moreFields (Keyed.insert key value fields)⟩

/-- Opens a container within those of the stack. -/
def State.open (depth : Nat) (stack : List Frame) (container : Container) (inside : Expected) :
    Except Refusal State :=
  if stack.length < depth then .ok ⟨stack, inside⟩ else .error (.tooDeep container)

/-- Starts a value with the given token. -/
def State.begin (depth : Nat) (stack : List Frame) (offset : Nat) : Token → Except Refusal State
  | .null => .ok (deliver .null stack)
  | .bool b => .ok (deliver (.bool b) stack)
  | .int n => .ok (deliver (.int n) stack)
  | .float x => .ok (deliver (.float x) stack)
  | .string s => .ok (deliver (.string s) stack)
  | .openBracket => State.open depth stack .array .firstItem
  | .openBrace => State.open depth stack .object .firstKey
  | .badString fault place => .error (.malformed (.string fault) place)
  | .longInt digits => .error (.longInt digits)
  | _ => .error (.malformed .value offset)

/-- Reads a key; `fields` are those that the object has already. -/
def State.readKey (stack : List Frame) (fields : List (Text × Json)) (offset : Nat) :
    Token → Except Refusal State
  | .string key => .ok ⟨stack, .colon fields key⟩
  | .badString fault place => .error (.malformed (.string fault) place)
  | _ => .error (.malformed .key offset)

/-- Takes one token. -/
def State.step (depth : Nat) (s : State) (offset : Nat) (token : Token) : Except Refusal State :=
  match s.expected with
  | .value => begin depth s.stack offset token
  | .firstItem =>
    match token with
    | .closeBracket => .ok (deliver (.array []) s.stack)
    | _ => begin depth (.array [] :: s.stack) offset token
  | .key fields => readKey s.stack fields offset token
  | .firstKey =>
    match token with
    | .closeBrace => .ok (deliver (.object []) s.stack)
    | _ => readKey s.stack [] offset token
  | .colon fields key =>
    match token with
    | .colon => .ok ⟨.object fields key :: s.stack, .value⟩
    | _ => .error (.malformed .colon offset)
  | .more items =>
    match token with
    | .comma => .ok ⟨.array items :: s.stack, .value⟩
    | .closeBracket => .ok (deliver (.array items.reverse) s.stack)
    | _ => .error (.malformed .comma offset)
  | .moreFields fields =>
    match token with
    | .comma => .ok ⟨s.stack, .key fields⟩
    | .closeBrace => .ok (deliver (.object fields) s.stack)
    | _ => .error (.malformed .comma offset)
  | .finish _ => .error (.malformed .extraData offset)

/-- The document, if the text may end here. -/
def State.close (s : State) (offset : Nat) : Except Refusal Json :=
  match s.expected with
  | .value | .firstItem => .error (.malformed .value offset)
  | .key _ | .firstKey => .error (.malformed .key offset)
  | .colon _ _ => .error (.malformed .colon offset)
  | .more _ | .moreFields _ => .error (.malformed .comma offset)
  | .finish document => .ok document

/-- Takes all tokens; the text ends at `size`. -/
def State.run (depth size : Nat) : State → List (Nat × Token) → Except Refusal Json
  | s, [] => s.close size
  | s, (offset, token) :: rest =>
    match s.step depth offset token with
    | .ok next => next.run depth size rest
    | .error refusal => .error refusal

/-- The value that a text denotes. -/
def ofText (depth : Nat) (text : List Char) : Except Refusal Json :=
  match text with
  | '\ufeff' :: _ => .error (.malformed .byteOrderMark 0)
  | _ => State.run depth text.length ⟨[], .value⟩ (tokens text)

end Json

namespace Document

open Text (Place)

/-- How many containers may be open at a time in every document. In some more of them may. -/
def supportedDepth : Nat := 500

/-- Why the bytes of a document are refused. -/
inductive Fault where
  | undecodable (refusal : Text.Utf8.Refusal)
  | malformed (fault : Json.Fault) (place : Place)
  | longInt (digits : Nat)
  | tooDeep (container : Json.Container)
  deriving DecidableEq

def Fault.message : Fault → String
  | .undecodable refusal => refusal.message
  | .malformed fault place => fault.message ++ ": " ++ place.message
  | .longInt digits =>
    "Exceeds the limit (" ++ toString Json.maxIntDigits ++
      " digits) for integer string conversion: value has " ++ toString digits ++
      " digits; use sys.set_int_max_str_digits() to increase the limit"
  | .tooDeep container =>
    "maximum recursion depth exceeded while decoding a JSON " ++ container.word ++
      " from a unicode string"

/-- The value that a text denotes, a fault being told with its line and column. -/
def ofText (depth : Nat) (text : List Char) : Except Fault Json :=
  match Json.ofText depth text with
  | .ok value => .ok value
  | .error (.malformed fault offset) => .error (.malformed fault (Text.placeAt text offset))
  | .error (.longInt digits) => .error (.longInt digits)
  | .error (.tooDeep container) => .error (.tooDeep container)

/-- The value that the bytes of a document denote, in which `depth` containers may be open at a time. -/
def read (depth : Nat) (bytes : List UInt8) : Except Fault Json :=
  match Text.Utf8.decode bytes with
  | .ok text => ofText depth (Text.unifyNewlines text)
  | .error refusal => .error (.undecodable refusal)

end Document

end JniSignatures
