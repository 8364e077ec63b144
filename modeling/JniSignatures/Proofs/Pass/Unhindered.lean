import Mathlib
import JniSignatures.Proofs.Pass.Rerun
import JniSignatures.Proofs.Pass.Result
/-!
# Passes that the host does not hinder

Where the host refuses nothing, only missing types can end a pass. One that the functions run on loading
need ends it before anything has changed, under both policies alike (`fails_of_loadMissing`).
Otherwise a pass under `skip` returns (`skip_returns`); one under `abort` returns if no method lacks a type
(`abort_returns_iff`), and stops at the first one that does.
-/

namespace JniSignatures.Pass

/-- The host refuses no change to the functions. -/
def Unhindered (fs : List Function) : Prop :=
  ∀ f ∈ fs, f.refusal = none

instance : DecidablePred Unhindered :=
  fun fs => inferInstanceAs (Decidable (∀ f ∈ fs, f.refusal = none))

/-- There is a function that runs on loading, and the catalog lacks a type for it. -/
def LacksLoadTypes (types : TypeMap) (fs : List Function) : Prop :=
  (∃ f ∈ fs, f.isOnLoad) ∧ (types Signature.machineType = none ∨ types Signature.versionType = none)

section Faults

variable {types : TypeMap} {fs : List Function} {i : Nat} {v : Verdict} {e : ActionFault}

theorem refusal_none_of_unhindered (free : Unhindered fs) {f : Function} (h : fs[i]? = some f) :
    f.refusal = none :=
  free f (List.mem_of_getElem? h)

theorem loadsFreely_iff (free : Unhindered fs) : LoadsFreely types fs ↔ ¬ LacksLoadTypes types fs := by
  constructor
  · rintro loads ⟨⟨f, hf, ho⟩, hmissing⟩
    obtain ⟨typeName, hname⟩ := loadMissing?_ne_none_iff.2 hmissing
    rw [loadMissing?_eq_none_iff.2 (loads f hf ho).1] at hname
    cases hname
  · intro has f hf ho
    refine ⟨loadMissing?_eq_none_iff.1 (Option.eq_none_iff_forall_ne_some.2 fun typeName hname => ?_), ?_⟩
    · exact has ⟨⟨f, hf, ho⟩, loadMissing?_ne_none_iff.1 ⟨typeName, hname⟩⟩
    · rw [Function.onLoadRefusal?, free f hf]
      rfl

theorem refusalOf_of_unhindered (free : Unhindered fs) (i : Nat) (setter : Setter) :
    fs[i]?.bind (·.refusalOf setter) = none := by
  cases h : fs[i]? with
  | none => rfl
  | some f => simp [Function.refusalOf, refusal_none_of_unhindered free h]

theorem fault?_skip (free : Unhindered fs) (v : Verdict) : v.fault? .skip fs = none := by
  cases v with
  | assigned i signature => simp [Verdict.fault?, refusalOf_of_unhindered free]
  | _ => rfl

theorem fault?_abort_eq_some_iff (free : Unhindered fs) : v.fault? .abort fs = some e ↔
    ∃ typeName, v = .lacking typeName ∧ e = .typeMissing typeName (Catalog.path typeName) := by
  cases v with
  | assigned i signature => simp [Verdict.fault?, refusalOf_of_unhindered free]
  | lacking typeName => simp [Verdict.fault?, eq_comm]
  | _ => simp [Verdict.fault?]

theorem fault?_abort_eq_none_iff (free : Unhindered fs) :
    v.fault? .abort fs = none ↔ ∀ typeName, v ≠ .lacking typeName := by
  rw [Option.eq_none_iff_forall_ne_some]
  constructor
  · rintro h typeName rfl
    exact h _ ((fault?_abort_eq_some_iff free).2 ⟨typeName, rfl, rfl⟩)
  · intro h e he
    obtain ⟨typeName, hv, -⟩ := (fault?_abort_eq_some_iff free).1 he
    exact h typeName hv

/-- A missing type is what is reported of exactly those methods that lack one. -/
theorem outcome_typeError_iff {m : Method} :
    (v.outcome m).status = .typeError ↔ ∃ typeName, v = .lacking typeName := by
  cases v <;> simp [Verdict.outcome, unsupportedOutcome, Status.typeError, Status.unsupported, Status.noMatch,
    Status.applied]

end Faults

/-! ## How such a pass ends -/

section Passes

variable {methods : List Method} {s : Session}

/-- A type that the functions run on loading lack ends every pass before anything has changed. -/
theorem fails_of_loadMissing {typeName : Text} (runs : ∃ f ∈ s.functions, f.isOnLoad)
    (missing : loadMissing? s.typeOf = some typeName) (policy : Policy) (methods : List Method) :
    ∃ t, exec (run policy methods) s = (.error (.typeMissing typeName (Catalog.path typeName)), t) ∧
      t.functions = s.functions := by
  obtain ⟨f, hf, ho⟩ := runs
  have hlacks : ¬ HasLoadTypes s.typeOf := by
    intro has
    rw [loadMissing?_eq_none_iff.2 has] at missing
    cases missing
  obtain ⟨r, t, he⟩ : ∃ r t, exec (run policy methods) s = (r, t) := ⟨_, _, rfl⟩
  refine ⟨t, ?_⟩
  have hc := course_of_exec he
  generalize t.functions = gs at hc ⊢
  cases hc with
  | returns loads => exact absurd (loads f hf ho).1 hlacks
  | stops loads => exact absurd (loads f hf ho).1 hlacks
  | breaksOff has => exact absurd has hlacks
  | lacks _ _ missing' =>
    obtain rfl := Option.some.inj (missing.symm.trans missing')
    exact ⟨he, rfl⟩

/-- What a pass that returns reports and leaves. -/
theorem reached_of_return {policy : Policy} {r : Report} {t : Session} (h : exec (run policy methods) s = (.ok r, t)) :
    r = reportOf s.typeOf methods s.functions ∧ t.functions = reached s.typeOf methods s.functions methods := by
  have hc := course_of_exec h
  generalize t.functions = gs at hc ⊢
  cases hc with
  | returns => exact ⟨rfl, rfl⟩

/-- A pass under `abort` returns if no type is missing. -/
theorem abort_returns_iff (free : Unhindered s.functions) : (∃ r t, exec (run .abort methods) s = (.ok r, t)) ↔
    ¬ LacksLoadTypes s.typeOf s.functions ∧
      ∀ m ∈ methods, ∀ typeName, judge s.typeOf methods s.functions m ≠ .lacking typeName := by
  constructor
  · rintro ⟨r, t, h⟩
    have hc := course_of_exec h
    generalize t.functions = gs at hc
    cases hc with
    | returns loads hfree =>
      exact ⟨(loadsFreely_iff free).1 loads, fun m hm => (fault?_abort_eq_none_iff free).1 (hfree m hm)⟩
  · rintro ⟨has, hall⟩
    obtain ⟨r, t, he⟩ : ∃ r t, exec (run .abort methods) s = (r, t) := ⟨_, _, rfl⟩
    obtain ⟨rfl, -⟩ := (course_of_exec he).of_free ((loadsFreely_iff free).2 has) fun m hm =>
      (fault?_abort_eq_none_iff free).2 (hall m hm)
    exact ⟨_, t, he⟩

/-- A pass under `skip` that lacks no type for the functions run on loading returns. -/
theorem skip_returns (free : Unhindered s.functions) (has : ¬ LacksLoadTypes s.typeOf s.functions)
    (methods : List Method) : ∃ t,
      exec (run .skip methods) s = (.ok (reportOf s.typeOf methods s.functions), t) ∧
        t.functions = reached s.typeOf methods s.functions methods := by
  obtain ⟨r, t, he⟩ : ∃ r t, exec (run .skip methods) s = (r, t) := ⟨_, _, rfl⟩
  obtain ⟨hr, ht⟩ := (course_of_exec he).of_free ((loadsFreely_iff free).2 has) fun m _ => fault?_skip free _
  exact ⟨t, hr ▸ he, ht⟩

end Passes

end JniSignatures.Pass
