import JniSignatures.Host.Session
import JniSignatures.Keyed
/-!
# The catalog of types

Types are looked up by name in an archive, where they live below the header that declares them.
`Catalog.query` asks the archive each time. `Catalog.resolve` asks it only for names that it does not
know yet; a name that the archive lacks stays unknown and is asked for again.
-/

namespace JniSignatures.Catalog

/-- The header below which the archive keeps its types. -/
def header : String := "/jni_all.h"

/-- The path of a type in the archive. -/
def path (typeName : Text) : Text :=
  header ++ "/" ++ typeName

/-- Asks the archive for a type. -/
def query : Resolver := fun typeName => do
  Action.record (.lookUpType (path typeName))
  match (← get).types.lookup typeName with
  | some descriptor => return descriptor
  | none => throw (.typeMissing typeName (path typeName))

/-- Finds a type, asking the archive once for each name that it has. -/
def resolve : Resolver := fun typeName => do
  match (← get).known.lookup typeName with
  | some descriptor => return descriptor
  | none =>
    let descriptor ← query typeName
    modify fun s => { s with known := Keyed.insert typeName descriptor s.known }
    return descriptor

end JniSignatures.Catalog
