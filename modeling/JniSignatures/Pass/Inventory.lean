import JniSignatures.Host.Session
import JniSignatures.Keyed
import JniSignatures.Symbol
/-!
# The inventory of a program

Before any method is matched, the functions are sorted once: those named like a symbol go to the
index, where the last function of a name counts, or to the ignored ones if their comment says so;
those that run when the library is loaded are kept apart; all others do not matter.
-/

namespace JniSignatures

/-- The functions of a program that matter, by position. -/
structure Inventory where
  index : List (String × Nat)
  ignored : List String
  onLoad : List Nat
  deriving DecidableEq

namespace Inventory

def empty : Inventory := ⟨[], [], []⟩

/-- The inventory with the function at a position. -/
def add (inventory : Inventory) (position : Nat) (f : Function) : Inventory :=
  if Symbol.isSymbol f.name then
    if Symbol.isIgnored f.comment then { inventory with ignored := inventory.ignored ++ [f.name] }
    else { inventory with index := Keyed.insert f.name position inventory.index }
  else if f.name = Symbol.onLoad then { inventory with onLoad := inventory.onLoad ++ [position] }
  else inventory

/-- The inventory with functions that stand from a position on. -/
def addAll (inventory : Inventory) (position : Nat) : List Function → Inventory
  | [] => inventory
  | f :: rest => (inventory.add position f).addAll (position + 1) rest

/-- The inventory of a program's functions. -/
def ofFunctions (functions : List Function) : Inventory :=
  empty.addAll 0 functions

/-- The names in the index. -/
def indexed (inventory : Inventory) : List String :=
  inventory.index.map (·.1)

/-- Lists the functions of the program and sorts them. -/
def take : Action Inventory := do
  Action.record .listFunctions
  return ofFunctions (← get).functions

end Inventory

end JniSignatures
