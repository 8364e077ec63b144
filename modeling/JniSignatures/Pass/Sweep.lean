import JniSignatures.Host.Catalog
import JniSignatures.Pass.Inventory
import JniSignatures.Report.Basic
import JniSignatures.Pass.Signature
/-!
# The signature pass

A pass takes the inventory of the program, changes the functions that run on loading, and then goes
through the declared methods in order. A method whose symbol is shared, or is no function's name,
changes nothing. One whose types are all known gives its function a new signature. A missing type
ends the pass or is passed over, as the policy says; any refusal of the host ends it.
-/

namespace JniSignatures

/-- What to do about a method with a missing type. -/
inductive Policy where
  | abort
  | skip
  deriving DecidableEq

namespace Policy

def name : Policy → String
  | .abort => "abort"
  | .skip => "skip"

/-- The policies in the order in which they are listed to the user. -/
def all : List Policy := [.abort, .skip]

/-- The policy of a name. -/
def ofName? (name : String) : Option Policy :=
  all.find? (·.name = name)

end Policy

namespace Pass

/-- The outcome of a method that has no symbol of its own. -/
def unsupportedOutcome (m : Method) (fault : Symbol.Fault) : Outcome :=
  ⟨some m.qualifiedName, none, .unsupported, none, some fault.message⟩

/-- Gives a matched function its signature; a missing type is passed over under `skip`. -/
def applyMatch (resolve : Resolver) (policy : Policy) (m : Method) (symbol : String)
    (function : Nat) : Action Outcome :=
  tryCatch
    (do
      let count ← Signature.assign resolve function m
      return ⟨some m.qualifiedName, some symbol, .applied, some count, none⟩)
    fun fault => do
      match fault, policy with
      | .typeMissing _ _, .skip =>
        Action.print ("[!] Skipping " ++ symbol ++ ": " ++ fault.message)
        return ⟨some m.qualifiedName, some symbol, .typeError, none, some fault.message⟩
      | _, _ => throw fault

/-- Matches one method against the index. -/
def matchMethod (resolve : Resolver) (policy : Policy) (index : List (String × Nat))
    (isShared : Bool) (m : Method) : Action Outcome := do
  match Symbol.ofMethod isShared m.qualifiedName with
  | .error fault =>
    Action.print ("[!] " ++ fault.message)
    return unsupportedOutcome m fault
  | .ok symbol =>
    Action.print ("[-] " ++ symbol)
    match index.lookup symbol with
    | none => return ⟨some m.qualifiedName, some symbol, .noMatch, none, none⟩
    | some function => applyMatch resolve policy m symbol function

/-- Matches methods one after the other; `shared` holds the symbols that several methods have. -/
def matchMethods (resolve : Resolver) (policy : Policy) (index : List (String × Nat))
    (shared : List String) : List Method → Action (List Outcome)
  | [] => return []
  | m :: rest => do
    let isShared := shared.contains (Symbol.ofName m.qualifiedName)
    let outcome ← matchMethod resolve policy index isShared m
    let others ← matchMethods resolve policy index shared rest
    return outcome :: others

/-- Changes the functions that run on loading; the result is their names. -/
def modifyOnLoad (resolve : Resolver) : List Nat → Action (List String)
  | [] => return []
  | function :: rest => do
    Signature.assignOnLoad resolve function
    let name ← Action.functionName function
    let others ← modifyOnLoad resolve rest
    return name :: others

/-- The line that closes a pass. -/
def closingLine (s : Summary) : String :=
  "Applied " ++ toString s.applied ++ " of " ++ toString s.methods ++ " declared methods (" ++
    toString s.noMatch ++ " unmatched, " ++ toString s.unsupported ++ " overloaded, " ++
    toString s.typeError ++ " type errors)"

/-- The pass, with a given way to find types. -/
def runWith (resolve : Resolver) (policy : Policy) (methods : List Method) : Action Report := do
  Action.print "[+] Enumerating JNI functions..."
  let inventory ← Inventory.take
  Action.printAll (inventory.indexed.map Text.ofString)
  let onLoadModified ← modifyOnLoad resolve inventory.onLoad
  Action.print ("Total JNI functions found: " ++ toString inventory.index.length)
  Action.print "Ignored JNI functions:"
  Action.printAll (inventory.ignored.map Text.ofString)
  Action.print ""
  Action.print "[+] Applying function signatures..."
  let shared := Symbol.shared (methods.map (·.qualifiedName))
  let outcomes ← matchMethods resolve policy inventory.index shared methods
  let report : Report :=
    { indexed := inventory.indexed, ignored := inventory.ignored, onLoadModified, outcomes }
  Action.print (closingLine report.summary)
  return report

/-- The pass. -/
def run (policy : Policy) (methods : List Method) : Action Report :=
  runWith Catalog.resolve policy methods

/-- Why a pass fails whose policy is given by name. -/
inductive Fault where
  | unknownPolicy (name : String)
  | action (fault : ActionFault)
  deriving DecidableEq

def Fault.message : Fault → Text
  | .unknownPolicy name => "Unsupported on_type_error policy: " ++ name
  | .action fault => fault.message

def Fault.kind : Fault → Kind
  | .unknownPolicy _ => .value
  | .action fault => fault.kind

/-- The pass under the policy of a name. Nothing happens if there is no such policy. -/
def runNamed (policyName : String) (methods : List Method) : ExceptT Fault (StateM Session) Report :=
  match Policy.ofName? policyName with
  | none => throw (.unknownPolicy policyName)
  | some policy => (run policy methods).adapt .action

end Pass

end JniSignatures
