import Mathlib
import JniSignatures.Proofs.Pass.Unhindered
/-!
# The counts of a report

The counts of a report come from different places: names from the index, outcomes from the methods. They
fit each other and the program (`accounts_of_return`): every method is counted under one status, no function
is counted as applied twice, symbols are shared by two methods at least, and a function named like a symbol
is missing from the counts only if a later one of its name stands in the index.
-/

namespace JniSignatures

/-- The counts of a report fit the methods and the functions that a pass was run on. -/
structure Report.Accounts (policy : Policy) (methods : List Method) (fs : List Function) (r : Report) : Prop where
  methods : r.summary.methods = methods.length
  statuses : r.summary.applied + r.summary.noMatch + r.summary.unsupported + r.summary.typeError = r.summary.methods
  /-- The functions of applied methods are indexed, and there are no two for one function. -/
  applied : ∃ names : List String,
    (r.outcomes.filter (·.status = .applied)).map (·.candidateName) = names.map some ∧
      names.Nodup ∧ names ⊆ r.indexed
  applied_le : r.summary.applied ≤ r.summary.indexed
  indexed : r.indexed.Nodup
  unsupported : r.summary.unsupported ≠ 1
  typeError : policy = .abort → r.summary.typeError = 0
  onLoadModified : r.summary.onLoadModified = fs.countP fun f => f.name = Symbol.onLoad
  found_le : r.summary.indexed + r.summary.ignored ≤ fs.countP fun f => Symbol.isSymbol f.name
  found_eq_iff : r.summary.indexed + r.summary.ignored = (fs.countP fun f => Symbol.isSymbol f.name) ↔
    (Inventory.nativeNames fs).Nodup

namespace Pass

variable {policy : Policy} {types : TypeMap} {methods : List Method} {fs : List Function} {m : Method}

/-! ## Statuses -/

section Statuses

variable {v : Verdict}

theorem outcome_applied_iff : (v.outcome m).status = .applied ↔ ∃ i signature, v = .assigned i signature := by
  cases v <;> simp [Verdict.outcome, unsupportedOutcome, Status.typeError, Status.unsupported, Status.noMatch,
    Status.applied]

theorem outcome_unsupported_iff : (v.outcome m).status = .unsupported ↔ v = .shared := by
  cases v <;> simp [Verdict.outcome, unsupportedOutcome, Status.typeError, Status.unsupported, Status.noMatch,
    Status.applied]

theorem outcome_status_cases (v : Verdict) (m : Method) :
    (v.outcome m).status = .applied ∨ (v.outcome m).status = .noMatch ∨
      (v.outcome m).status = .unsupported ∨ (v.outcome m).status = .typeError := by
  cases v with
  | shared => exact .inr (.inr (.inl rfl))
  | unmatched => exact .inr (.inl rfl)
  | lacking typeName => exact .inr (.inr (.inr rfl))
  | assigned i signature => exact .inl rfl

/-- Outcomes that have one of the four statuses each are counted under one of them each. -/
theorem count_statuses {outcomes : List Outcome} (h : ∀ o ∈ outcomes, o.status = .applied ∨ o.status = .noMatch ∨
    o.status = .unsupported ∨ o.status = .typeError) :
    outcomes.countP (·.status = .applied) + outcomes.countP (·.status = .noMatch) +
      outcomes.countP (·.status = .unsupported) + outcomes.countP (·.status = .typeError) = outcomes.length := by
  induction outcomes with
  | nil => rfl
  | cons o rest ih =>
    have hrest := ih fun p hp => h p (List.mem_cons_of_mem _ hp)
    rw [List.length_cons]
    simp only [List.countP_cons]
    rcases h o List.mem_cons_self with ho | ho | ho | ho <;> rw [ho] <;>
      simp [Status.applied, Status.noMatch, Status.unsupported, Status.typeError] at hrest ⊢ <;> omega

end Statuses

/-! ## Outcomes of a report -/

theorem count_reportOf (status : Status) : (reportOf types methods fs).count status =
    methods.countP fun m => ((judge types methods fs m).outcome m).status = status := by
  rw [Report.count, reportOf, List.countP_map]
  rfl

theorem judge_eq_shared_iff : judge types methods fs m = .shared ↔
    Symbol.ofName m.qualifiedName ∈ Symbol.shared (methods.map (·.qualifiedName)) := by
  constructor
  · intro h
    have hg := grounds types methods fs m
    rw [h] at hg
    cases hg with
    | shared several => exact several
  · intro h
    rw [judge, verdict, if_pos (by simpa using h)]

theorem unsupported_ne_one : (reportOf types methods fs).count .unsupported ≠ 1 := by
  rw [count_reportOf]
  simp only [outcome_unsupported_iff, judge_eq_shared_iff]
  exact Symbol.countP_shared_ne_one methods

/-- The names of the functions of applied methods. -/
theorem exists_applied_names (types : TypeMap) (methods : List Method) (fs : List Function) :
    ∃ names : List String,
      ((reportOf types methods fs).outcomes.filter (·.status = .applied)).map (·.candidateName) = names.map some ∧
        names.Nodup ∧ names ⊆ (reportOf types methods fs).indexed := by
  let assigned := methods.filter fun m => ((judge types methods fs m).outcome m).status = .applied
  have happ : ∀ m ∈ assigned, ∃ i f signature, judge types methods fs m = .assigned i signature ∧
      Applies types methods fs i f m signature := by
    intro m hm
    obtain ⟨hm, hs⟩ := List.mem_filter.1 hm
    obtain ⟨i, signature, hj⟩ := outcome_applied_iff.1 (of_decide_eq_true hs)
    obtain ⟨f, hf⟩ := (judge_eq_assigned_iff hm).1 hj
    exact ⟨i, f, signature, hj, hf⟩
  refine ⟨assigned.map fun m => Symbol.ofName m.qualifiedName, ?_, ?_, ?_⟩
  · rw [reportOf, List.filter_map, List.map_map, List.map_map]
    refine List.map_congr_left fun m hm => ?_
    obtain ⟨i, f, signature, hj, -⟩ := happ m hm
    rw [Function.comp_apply, Function.comp_apply, hj]
    rfl
  · refine Symbol.nodup_map_ofName List.filter_sublist fun m hm => ?_
    obtain ⟨i, f, signature, -, hf⟩ := happ m hm
    rw [hf.mem.2, hf.alone]
  · intro name hname
    obtain ⟨m, hm, rfl⟩ := List.mem_map.1 hname
    obtain ⟨i, f, signature, -, hf⟩ := happ m hm
    refine Inventory.mem_indexed_iff.2 (Inventory.mem_nativeNames_iff.2 ⟨f, ?_, hf.stands.native, hf.mem.2.symm⟩)
    exact List.mem_of_getElem? hf.stands.here

/-! ## The whole report -/

/-- The counts of a report fit each other, the methods, and the functions with which the pass began. -/
theorem accounts_of_return {s t : Session} {r : Report} (h : exec (run policy methods) s = (.ok r, t)) :
    r.Accounts policy methods s.functions := by
  have hc := course_of_exec h
  obtain ⟨rfl, -⟩ := reached_of_return h
  obtain ⟨names, hnames, hnodup, hsub⟩ := exists_applied_names s.typeOf methods s.functions
  have hcount : (reportOf s.typeOf methods s.functions).count .applied = names.length := by
    rw [Report.count, List.countP_eq_length_filter, ← List.length_map (·.candidateName), hnames, List.length_map]
  have hignored := Inventory.length_nativeNames_add_ignored s.functions
  refine
    { methods := List.length_map ..
      statuses := count_statuses fun o ho => ?_
      applied := ⟨names, hnames, hnodup, hsub⟩
      applied_le := ?_
      indexed := Inventory.nodup_indexed s.functions
      unsupported := unsupported_ne_one
      typeError := ?_
      onLoadModified := ?_
      found_le := ?_
      found_eq_iff := ?_ }
  · obtain ⟨m, -, rfl⟩ := List.mem_map.1 ho
    exact outcome_status_cases _ m
  · exact hcount.trans_le (List.subperm_of_subset hnodup hsub).length_le
  · rintro rfl
    generalize t.functions = gs at hc
    cases hc with
    | returns loads free =>
      show (reportOf s.typeOf methods s.functions).count .typeError = 0
      rw [count_reportOf, List.countP_eq_zero]
      intro m hm hs
      obtain ⟨typeName, hj⟩ := outcome_typeError_iff.1 (of_decide_eq_true hs)
      have hfree := free m hm
      rw [hj, Verdict.fault?, if_pos rfl] at hfree
      cases hfree
  · exact (List.length_replicate ..).trans (Inventory.length_onLoad s.functions)
  · rw [← hignored]
    exact Nat.add_le_add_right (Inventory.length_indexed_le s.functions) _
  · rw [← hignored, ← Inventory.length_indexed_eq_iff]
    exact Nat.add_right_cancel_iff

/-- A library in which one name is there three times, once for a function that is ignored. -/
def sharedName : Session :=
  { functions :=
      [⟨"Java_A_f", none, [], "undefined", none⟩, ⟨"Java_A_f", some "JNIAnalyzer:IGNORE", [], "undefined", none⟩,
        ⟨"JNI_OnLoad", none, [], "undefined", none⟩, ⟨"Java_A_f", none, [], "undefined", none⟩,
        ⟨"Java_A_g", none, [], "undefined", none⟩]
    types := [("JNIEnv *", "E"), ("JavaVM *", "V"), ("jint", "I"), ("jobject", "O")]
    known := [], calls := [], printed := [] }

/-- Methods of `sharedName`: two with one symbol, one that is matched, one of a function that is not there, and
one with a type that is missing. -/
def sharedNameMethods : List Method :=
  [⟨"A.h", [], "jint", false⟩, ⟨"A.f", ["jint"], "jint", false⟩, ⟨"A.h", ["jint"], "jint", false⟩,
    ⟨"A.k", [], "jint", false⟩, ⟨"A.g", [], "jlong", false⟩]

/-- No count of this pass is zero, and one name that is listed twice belongs to one applied method. -/
theorem sharedName_accounts : ∃ r t, exec (run .skip sharedNameMethods) sharedName = (.ok r, t) ∧
    r.summary = ⟨2, 1, 1, 5, 1, 1, 2, 1⟩ ∧ r.Accounts .skip sharedNameMethods sharedName.functions := by
  obtain ⟨r, hr⟩ : ∃ r, (exec (run .skip sharedNameMethods) sharedName).1 = .ok r := ⟨_, rfl⟩
  have hrun : exec (run .skip sharedNameMethods) sharedName = (.ok r, _) := Prod.ext hr rfl
  have hsummary : (exec (run .skip sharedNameMethods) sharedName).1.map Report.summary =
      .ok ⟨2, 1, 1, 5, 1, 1, 2, 1⟩ := by decide +kernel
  rw [hr] at hsummary
  exact ⟨r, _, hrun, Except.ok.inj hsummary, accounts_of_return hrun⟩

end Pass

end JniSignatures
