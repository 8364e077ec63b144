import Mathlib
import JniSignatures.Proofs.Pass.Unhindered
/-!
# Which symbols there are

Of a program that the host does not refuse to change, the outcomes of a pass show only which symbols there
are: the names that methods can be matched with, and whether there is a function that runs on loading.
Order, repetitions, signatures, comments and all other functions leave no trace in them
(`outcomes_of_symbols`). A pass on another program judges every method alike, up to the place of the
function (`judge_alike`), so that it meets the same first fault.
-/

namespace JniSignatures.Pass

/-- Two programs have the same symbols. -/
structure SameSymbols (fs gs : List Function) : Prop where
  names : ∀ name, name ∈ Inventory.nativeNames gs ↔ name ∈ Inventory.nativeNames fs
  onLoad : (∃ g ∈ gs, g.isOnLoad) ↔ ∃ f ∈ fs, f.isOnLoad

/-- The fault of the functions that run on loading, if the catalog lacks a type for them. -/
def loadFault? (types : TypeMap) (fs : List Function) : Option ActionFault :=
  if ∃ f ∈ fs, f.isOnLoad then (loadMissing? types).map fun typeName => .typeMissing typeName (Catalog.path typeName)
  else none

/-- The fault of the first method that has one. -/
def methodFault? (policy : Policy) (types : TypeMap) (methods : List Method) (fs : List Function) :
    Option ActionFault :=
  methods.findSome? fun m => (judge types methods fs m).fault? policy fs

/-- What a pass says of the methods: the outcomes, or the first fault that it meets. -/
def ending (policy : Policy) (types : TypeMap) (methods : List Method) (fs : List Function) :
    Except ActionFault (List Outcome) :=
  match (loadFault? types fs).or (methodFault? policy types methods fs) with
  | some e => .error e
  | none => .ok (methods.map fun m => (judge types methods fs m).outcome m)

variable {policy : Policy} {types : TypeMap} {methods : List Method} {fs gs : List Function}

/-! ## The ending of a pass -/

section Ending

variable {result : Except ActionFault Report} {e : ActionFault}

theorem loadFault?_eq_none_iff (free : Unhindered fs) : loadFault? types fs = none ↔ LoadsFreely types fs := by
  rw [loadsFreely_iff free, LacksLoadTypes, ← loadMissing?_ne_none_iff, not_and, loadFault?]
  split
  · rename_i runs
    simp [runs, ← Option.eq_none_iff_forall_ne_some]
  · rename_i runs
    simp [runs]

theorem ending_of_course (free : Unhindered fs) (h : Course policy types methods fs result gs) :
    result.map Report.outcomes = ending policy types methods fs := by
  cases h with
  | returns loads hfree =>
    have hnone : methodFault? policy types methods fs = none := List.findSome?_eq_none_iff.2 hfree
    rw [ending, (loadFault?_eq_none_iff free).2 loads, hnone]
    rfl
  | lacks mem runs missing =>
    have hsome : loadFault? types fs = (loadMissing? types).map fun typeName =>
        .typeMissing typeName (Catalog.path typeName) := if_pos ⟨_, mem, runs⟩
    rw [ending, hsome, missing]
    rfl
  | breaksOff _ here _ met =>
    rw [Function.onLoadRefusal?, refusal_none_of_unhindered free here] at met
    cases met
  | @stops before after m e loads split hfree fault =>
    have hsome : methodFault? policy types methods fs = some e := by
      obtain rfl := split
      rw [methodFault?, List.findSome?_append, List.findSome?_eq_none_iff.2 hfree, List.findSome?_cons, fault]
      rfl
    rw [ending, (loadFault?_eq_none_iff free).2 loads, hsome]
    rfl

/-- Where the host refuses nothing, a fault is a missing type. -/
theorem typeMissing_of_ending (free : Unhindered fs) (h : ending policy types methods fs = .error e) :
    ∃ typeName, e = .typeMissing typeName (Catalog.path typeName) := by
  unfold ending at h
  split at h
  · rename_i fault hfault
    cases h
    rcases Option.or_eq_some_iff.1 hfault with hload | ⟨-, hmethod⟩
    · unfold loadFault? at hload
      split at hload
      · obtain ⟨typeName, -, he⟩ := Option.map_eq_some_iff.1 hload
        exact ⟨typeName, he.symm⟩
      · cases hload
    · obtain ⟨m, -, hm⟩ := List.exists_of_findSome?_eq_some hmethod
      cases policy with
      | abort =>
        obtain ⟨typeName, -, he⟩ := (fault?_abort_eq_some_iff free).1 hm
        exact ⟨typeName, he⟩
      | skip =>
        rw [fault?_skip free] at hm
        cases hm
  · cases h

end Ending

/-! ## Two programs -/

section Two

/-- A method is judged alike in both programs, up to the place of its function. -/
theorem judge_alike (same : SameSymbols fs gs) (types : TypeMap) (methods : List Method) (m : Method) :
    judge types methods gs m = judge types methods fs m ∨
      ∃ i j signature, judge types methods fs m = .assigned i signature ∧
        judge types methods gs m = .assigned j signature := by
  have hnone : (Inventory.ofFunctions gs).index.lookup (Symbol.ofName m.qualifiedName) = none ↔
      (Inventory.ofFunctions fs).index.lookup (Symbol.ofName m.qualifiedName) = none := by
    rw [Inventory.lookup_index_eq_none_iff_notMem, Inventory.lookup_index_eq_none_iff_notMem, same.names]
  unfold judge verdict
  split
  · exact .inl rfl
  · cases hg : (Inventory.ofFunctions gs).index.lookup (Symbol.ofName m.qualifiedName) with
    | none =>
      rw [hnone.1 hg]
      exact .inl rfl
    | some j =>
      obtain ⟨i, hf⟩ : ∃ i, (Inventory.ofFunctions fs).index.lookup (Symbol.ofName m.qualifiedName) = some i := by
        refine Option.ne_none_iff_exists'.1 fun hf => ?_
        rw [hnone.2 hf] at hg
        cases hg
      rw [hf]
      cases Signature.missing? types m with
      | some typeName => exact .inl rfl
      | none => exact .inr ⟨i, j, _, rfl, rfl⟩

theorem outcome_alike (same : SameSymbols fs gs) (types : TypeMap) (methods : List Method) (m : Method) :
    (judge types methods gs m).outcome m = (judge types methods fs m).outcome m := by
  rcases judge_alike same types methods m with h | ⟨i, j, signature, hf, hg⟩
  · rw [h]
  · rw [hf, hg]
    rfl

theorem fault_alike (same : SameSymbols fs gs) (free : Unhindered fs) (free' : Unhindered gs) (policy : Policy)
    (types : TypeMap) (methods : List Method) (m : Method) :
    (judge types methods gs m).fault? policy gs = (judge types methods fs m).fault? policy fs := by
  rcases judge_alike same types methods m with h | ⟨i, j, signature, hf, hg⟩
  · rw [h]
    cases judge types methods fs m with
    | assigned i signature =>
      rw [Verdict.fault?, Verdict.fault?, refusalOf_of_unhindered free, refusalOf_of_unhindered free']
    | _ => rfl
  · rw [hf, hg, Verdict.fault?, Verdict.fault?, refusalOf_of_unhindered free, refusalOf_of_unhindered free']

theorem ending_congr (same : SameSymbols fs gs) (free : Unhindered fs) (free' : Unhindered gs) :
    ending policy types methods gs = ending policy types methods fs := by
  have hload : loadFault? types gs = loadFault? types fs := by
    rw [loadFault?, loadFault?]
    simp only [same.onLoad]
  have hmethod : methodFault? policy types methods gs = methodFault? policy types methods fs := by
    rw [methodFault?, methodFault?]
    simp only [fault_alike same free free']
  rw [ending, ending, hload, hmethod]
  simp only [outcome_alike same]

end Two

/-- On two programs with the same symbols, and with the same catalog, passes over the same methods lack the
same type or return with the same outcomes, where the host refuses nothing. -/
theorem outcomes_of_symbols {s s' : Session} (catalog : s'.typeOf = s.typeOf) (free : Unhindered s.functions)
    (free' : Unhindered s'.functions) (same : SameSymbols s.functions s'.functions) (policy : Policy)
    (methods : List Method) :
    (∃ typeName t t', exec (run policy methods) s = (.error (.typeMissing typeName (Catalog.path typeName)), t) ∧
      exec (run policy methods) s' = (.error (.typeMissing typeName (Catalog.path typeName)), t')) ∨
    ∃ r r' t t', exec (run policy methods) s = (.ok r, t) ∧ exec (run policy methods) s' = (.ok r', t') ∧
      r'.outcomes = r.outcomes := by
  obtain ⟨result, t, h⟩ : ∃ result t, exec (run policy methods) s = (result, t) := ⟨_, _, rfl⟩
  obtain ⟨result', t', h'⟩ : ∃ result' t', exec (run policy methods) s' = (result', t') := ⟨_, _, rfl⟩
  have hend := ending_of_course free (course_of_exec h)
  have hend' := ending_of_course free' (course_of_exec h')
  rw [catalog, ending_congr same free free', ← hend] at hend'
  cases result with
  | error e =>
    left
    obtain ⟨typeName, rfl⟩ := typeMissing_of_ending free hend.symm
    cases result' with
    | error e' => exact ⟨typeName, t, t', h, by rw [h', Except.error.inj hend']⟩
    | ok r' => cases hend'
  | ok r =>
    right
    cases result' with
    | error e' => cases hend'
    | ok r' => exact ⟨r, r', t, t', h, h', Except.ok.inj hend'⟩

/-- The functions of `offering` in another program: with an ignored twin, a repetition, another order, other
signatures and functions that do not matter. -/
def rearranged : List Function :=
  [⟨"Java_A_g", none, [⟨"x", "undefined"⟩], "undefined", none⟩,
    ⟨"Java_A_f", some "JNIAnalyzer:IGNORE", [], "undefined", none⟩, ⟨"main", none, [], "undefined", none⟩,
    ⟨"Java_A_f", some "seen", [], "undefined", none⟩, ⟨"Java_A_g", none, [], "undefined", none⟩,
    ⟨"JNI_OnLoad", none, [⟨"p0", "undefined"⟩], "undefined", none⟩]

/-- A library with a function that runs on loading and two native ones. -/
def offering : Session :=
  { functions :=
      [⟨"JNI_OnLoad", none, [], "undefined", none⟩, ⟨"Java_A_f", none, [], "undefined", none⟩,
        ⟨"Java_A_g", none, [], "undefined", none⟩]
    types := [("JNIEnv *", "E"), ("JavaVM *", "V"), ("jint", "I"), ("jobject", "O")]
    known := [], calls := [], printed := [] }

/-- Methods of `offering`, one of them with a type that is missing and one of a function that is not there. -/
def offeringMethods : List Method :=
  [⟨"A.f", ["jint"], "jint", false⟩, ⟨"A.h", [], "jint", false⟩, ⟨"A.g", [], "jlong", false⟩]

theorem rearranged_outcomes : SameSymbols offering.functions rearranged ∧
    ∃ r r' t t', exec (run .skip offeringMethods) offering = (.ok r, t) ∧
      exec (run .skip offeringMethods) { offering with functions := rearranged } = (.ok r', t') ∧
      r'.outcomes = r.outcomes ∧ r.outcomes.map (·.status) = [.applied, .noMatch, .typeError] := by
  have same : SameSymbols offering.functions rearranged := by
    refine ⟨fun name => ?_, by decide⟩
    rw [show Inventory.nativeNames offering.functions = ["Java_A_f", "Java_A_g"] by decide +kernel,
      show Inventory.nativeNames rearranged = ["Java_A_g", "Java_A_f", "Java_A_g"] by decide +kernel]
    simp only [List.mem_cons, List.not_mem_nil, or_false]
    tauto
  refine ⟨same, ?_⟩
  have hstatus : (exec (run .skip offeringMethods) offering).1.map (fun r => r.outcomes.map (·.status)) =
      .ok [.applied, .noMatch, .typeError] := by decide +kernel
  have catalog : ({ offering with functions := rearranged } : Session).typeOf = offering.typeOf := rfl
  rcases outcomes_of_symbols catalog (by decide) (by decide) same .skip offeringMethods with
    ⟨typeName, t, t', h, -⟩ | ⟨r, r', t, t', h, h', hout⟩
  · rw [h] at hstatus
    cases hstatus
  · rw [h] at hstatus
    exact ⟨r, r', t, t', h, h', hout, Except.ok.inj hstatus⟩

end JniSignatures.Pass
