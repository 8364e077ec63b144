import JniSignatures.Host.Call
import JniSignatures.Kind
/-!
# Sessions with the host

A `Session` is what the host shows to a pass: the functions of the program in their order, the types
of the archive by name, the types that have been looked up before, and the record of calls and of
printed lines. An `Action` works on a session and may fail; what it has done before stays.
-/

namespace JniSignatures

/-- The state of the host, and what has been called and printed. -/
structure Session where
  functions : List Function
  types : List (Text × String)
  known : List (Text × String)
  calls : List Call
  printed : List Text
  deriving DecidableEq

/-- Why an action on the host fails. -/
inductive ActionFault where
  /-- The archive has no type of that name, which would be at that path. -/
  | typeMissing (typeName path : Text)
  /-- The host refuses a call. -/
  | refused (message : String)
  deriving DecidableEq

def ActionFault.message : ActionFault → Text
  | .typeMissing typeName path => "type not found in catalog: " ++ typeName ++ " (" ++ path ++ ")"
  | .refused message => message

def ActionFault.kind : ActionFault → Kind
  | .typeMissing _ _ => .typeResolution
  | .refused _ => .host

/-- An action on the host. Its effects stay when it fails. -/
abbrev Action := ExceptT ActionFault (StateM Session)

namespace Action

/-- Records a call. -/
def record (call : Call) : Action Unit :=
  modify fun s => { s with calls := s.calls ++ [call] }

/-- Prints a line. -/
def print (line : Text) : Action Unit :=
  modify fun s => { s with printed := s.printed ++ [line] }

/-- Prints lines. -/
def printAll (lines : List Text) : Action Unit :=
  modify fun s => { s with printed := s.printed ++ lines }

/-- The name of a function, or nothing if there is no such function. -/
def functionName (function : Nat) : Action String :=
  return ((← get).functions[function]?.map (·.name)).getD ""

/-- Calls the host to change a function. The change is made unless the host refuses it. -/
def change (call : Call) (setter : Setter) (function : Nat) (edit : Function → Function) :
    Action Unit := do
  record call
  match (← get).functions[function]?.bind (·.refusalOf setter) with
  | some message => throw (.refused message)
  | none => modify fun s => { s with functions := s.functions.modify function edit }

/-- Gives a function new parameters and a new return type. -/
def replaceSignature (function : Nat) (params : List Parameter) (returnType : String) : Action Unit :=
  change (.replaceSignature function returnType params) .signature function
    fun f => { f with params, returnType }

/-- Renames the first parameter of a function and then gives it another type. -/
def setFirstParameter (function : Nat) (param : Parameter) : Action Unit := do
  change (.setParameterName function 0 param.name) .parameterName function
    (Function.modifyFirst fun p => { p with name := param.name })
  change (.setParameterType function 0 param.type) .parameterType function
    (Function.modifyFirst fun p => { p with type := param.type })

/-- Gives a function another return type. -/
def setReturnType (function : Nat) (returnType : String) : Action Unit :=
  change (.setReturnType function returnType) .returnType function fun f => { f with returnType }

end Action

/-- A way to find the descriptor of a type. -/
abbrev Resolver := Text → Action String

end JniSignatures
