import JniSignatures.Host.Session
import JniSignatures.Methods.Method
/-!
# Signatures of native functions

A native function takes the interface pointer, then the class or the object on which it is called,
then the declared arguments. All types are found before the function is touched, so that a type that
is missing leaves it as it was. The function that runs on loading takes the virtual machine and
returns a version; if it has parameters already, only its first one and its return type are changed.
-/

namespace JniSignatures

/-- Parameters and return type. -/
structure Signature where
  params : List Parameter
  returnType : String
  deriving DecidableEq

namespace Signature

def interfaceName : String := "env"
def interfaceType : Text := "JNIEnv *"
def receiverName : String := "thiz"
def classType : Text := "jclass"
def objectType : Text := "jobject"
def machineName : String := "vm"
def machineType : Text := "JavaVM *"
def versionType : Text := "jint"

/-- The name of the argument at a position. -/
def argumentName (position : Nat) : String :=
  "a" ++ toString position

/-- The type of what a method is called on. -/
def receiverType (m : Method) : Text :=
  if m.isStatic then classType else objectType

/-- The arguments from a position on. -/
def arguments (resolve : Resolver) (position : Nat) : List Text → Action (List Parameter)
  | [] => return []
  | typeName :: rest => do
    let type ← resolve typeName
    let others ← arguments resolve (position + 1) rest
    return ⟨argumentName position, type⟩ :: others

/-- The parameters of the function for a method. -/
def parameters (resolve : Resolver) (m : Method) : Action (List Parameter) := do
  let interface ← resolve interfaceType
  let receiver ← resolve (receiverType m)
  let others ← arguments resolve 0 m.argumentTypes
  return ⟨interfaceName, interface⟩ :: ⟨receiverName, receiver⟩ :: others

/-- The signature of the function for a method. -/
def ofMethod (resolve : Resolver) (m : Method) : Action Signature := do
  let params ← parameters resolve m
  let returnType ← resolve m.returnType
  return { params, returnType }

/-- Gives a function the signature for a method; the result is the number of parameters. -/
def assign (resolve : Resolver) (function : Nat) (m : Method) : Action Nat := do
  let signature ← ofMethod resolve m
  Action.replaceSignature function signature.params signature.returnType
  return signature.params.length

/-- Gives the function that runs on loading its parameter and its return type. -/
def assignOnLoad (resolve : Resolver) (function : Nat) : Action Unit := do
  Action.print ("Modified " ++ (← Action.functionName function))
  let machine ← resolve machineType
  let version ← resolve versionType
  match (← get).functions[function]? with
  | some ⟨_, _, _ :: _, _, _⟩ =>
    Action.setFirstParameter function ⟨machineName, machine⟩
    Action.setReturnType function version
  | _ => Action.replaceSignature function [⟨machineName, machine⟩] version

end Signature

end JniSignatures
