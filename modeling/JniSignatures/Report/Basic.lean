import JniSignatures.Text.CodePoint
/-!
# The report of a pass

A pass reports the names of the functions that it found and one outcome per declared method, in the
order of the methods. The summary counts them.
-/

namespace JniSignatures

/-- How a method fared, as a word. -/
structure Status where
  word : String
  deriving DecidableEq

namespace Status

/-- The function has the signature of the method. -/
def applied : Status := ⟨"applied"⟩

/-- No function has the symbol of the method. -/
def noMatch : Status := ⟨"no_match"⟩

/-- The method shares its symbol with another one. -/
def unsupported : Status := ⟨"unsupported"⟩

/-- A type of the method is missing. -/
def typeError : Status := ⟨"type_error"⟩

end Status

/-- What became of a method. -/
structure Outcome where
  qualifiedName : Option Text
  candidateName : Option String
  status : Status
  parameterCount : Option Int
  detail : Option Text
  deriving DecidableEq

/-- The report of a pass. -/
structure Report where
  indexed : List String
  ignored : List String
  onLoadModified : List String
  outcomes : List Outcome
  deriving DecidableEq

/-- The counts of a report. -/
structure Summary where
  indexed : Nat
  ignored : Nat
  onLoadModified : Nat
  methods : Nat
  applied : Nat
  noMatch : Nat
  unsupported : Nat
  typeError : Nat
  deriving DecidableEq

namespace Report

/-- The number of outcomes with a status. -/
def count (r : Report) (status : Status) : Nat :=
  r.outcomes.countP (·.status = status)

def summary (r : Report) : Summary :=
  { indexed := r.indexed.length
    ignored := r.ignored.length
    onLoadModified := r.onLoadModified.length
    methods := r.outcomes.length
    applied := r.count .applied
    noMatch := r.count .noMatch
    unsupported := r.count .unsupported
    typeError := r.count .typeError }

end Report

end JniSignatures
