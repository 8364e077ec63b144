/-!
# Functions of a program

A function has a name, perhaps a comment, parameters and a return type. Types are those that the host
keeps; a type is known here by its descriptor. A function may be one that the host refuses to change
in a certain way.
-/

namespace JniSignatures

/-- A parameter with the descriptor of its type. -/
structure Parameter where
  name : String
  type : String
  deriving DecidableEq

/-- The ways to change a function. -/
inductive Setter where
  | signature
  | parameterName
  | parameterType
  | returnType
  deriving DecidableEq

/-- A change that the host refuses, with its message. -/
structure Refusal where
  setter : Setter
  message : String
  deriving DecidableEq

/-- A function of the program. -/
structure Function where
  name : String
  comment : Option String
  params : List Parameter
  returnType : String
  refusal : Option Refusal
  deriving DecidableEq

namespace Function

/-- The function with its first parameter changed. -/
def modifyFirst (edit : Parameter → Parameter) (f : Function) : Function :=
  { f with params := f.params.modify 0 edit }

/-- The message with which the host refuses a change, if it does. -/
def refusalOf (f : Function) (setter : Setter) : Option String :=
  match f.refusal with
  | some r => if r.setter = setter then some r.message else none
  | none => none

end Function

end JniSignatures
