import JniSignatures.Json.Reader
import JniSignatures.Table.Library
/-!
# What a run relies on

Some of what a run does is up to the interpreter and the library that it comes with: how fact tables
are kept, how deep a document may be nested, and what the account of a failure says before the line
that names it.
-/

namespace JniSignatures

/-- The documents that are read. A document is read with more or less of the interpreter's stack in
use, so each has a limit of its own. -/
inductive Source where
  | methods
  | report
  | factsIndex
  deriving DecidableEq

/-- What a run relies on. -/
structure Runtime where
  tables : Table.Library
  /-- How many containers may be open at a time in a document. -/
  depth : Source → Nat
  supported : ∀ source, Document.supportedDepth ≤ depth source
  /-- The lines that an account of a failure has before the one that names it: they tell where the
  failure arose. -/
  trace : (failure : Text) → List String

end JniSignatures
