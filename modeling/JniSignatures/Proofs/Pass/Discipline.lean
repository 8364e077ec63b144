import Mathlib
import JniSignatures.Proofs.Pass.Deeds
import JniSignatures.Proofs.Pass.Result
/-!
# How a pass treats the functions

However a pass ends, it lists the functions once before it changes any, changes those that run on loading
before all others and in the order of the program, and gives each native one a signature once at most, because
at most one method is assigned to it (`disciplined_of_exec`). No other function is touched.
-/

namespace JniSignatures.Pass

/-- The calls that change the function at a position. -/
def callsOn (i : Nat) (calls : List Call) : List Call :=
  calls.filter fun call => call.target? = some i

/-- How a pass treats the functions; `comes` is whether it comes to the declared methods. -/
structure Disciplined (types : TypeMap) (fs : List Function) (comes : Prop) (calls : List Call) : Prop where
  /-- Look-ups apart, the functions are listed once, then those that run on loading are changed in the order
  of the program, and then native ones. -/
  order : ∃ loads applies, calls.filter (!·.isLookUp) = .listFunctions :: (loads ++ applies) ∧
    loads <+: loadCalls types fs ∧ (comes → loads = loadCalls types fs) ∧ (¬ comes → applies = []) ∧
    ∀ call ∈ applies, ∃ i f, call.target? = some i ∧ fs[i]? = some f ∧ f.isNative
  native : ∀ i f, fs[i]? = some f → f.isNative →
    callsOn i calls = [] ∨ ∃ returnType params, callsOn i calls = [.replaceSignature i returnType params]
  onLoad : ∀ i f, fs[i]? = some f → f.isOnLoad →
    let own := f.loadCalls ((types Signature.machineType).getD "") ((types Signature.versionType).getD "") i
    callsOn i calls <+: own ∧ (comes → callsOn i calls = own)
  others : ∀ i, (∀ f, fs[i]? = some f → ¬ f.isNative ∧ ¬ f.isOnLoad) → callsOn i calls = []

section Calls

variable {types : TypeMap} {methods : List Method} {fs : List Function} {m : Method} {i j : Nat} {f : Function}
  {call : Call} {calls loads applies : List Call} {machine version : String}

/-! ## The calls for one function -/

theorem callsOn_append (i : Nat) (calls more : List Call) :
    callsOn i (calls ++ more) = callsOn i calls ++ callsOn i more :=
  List.filter_append ..

theorem callsOn_eq_nil_iff : callsOn i calls = [] ↔ ∀ call ∈ calls, call.target? ≠ some i := by
  rw [callsOn, List.filter_eq_nil_iff]
  simp only [decide_eq_true_eq, ne_eq]

/-- No look-up changes a function. -/
theorem callsOn_filter (i : Nat) (calls : List Call) : callsOn i (calls.filter (!·.isLookUp)) = callsOn i calls := by
  rw [callsOn, List.filter_filter]
  refine List.filter_congr fun call _ => ?_
  cases call <;> simp [Call.target?, Call.isLookUp]

theorem target_loadCalls (h : call ∈ f.loadCalls machine version i) : call.target? = some i := by
  obtain ⟨name, comment, params, returnType, refusal⟩ := f
  cases params with
  | nil =>
    rw [List.mem_singleton.1 h]
    rfl
  | cons p ps =>
    simp only [Function.loadCalls, List.mem_cons, List.not_mem_nil, or_false] at h
    rcases h with rfl | rfl | rfl <;> rfl

theorem callsOn_loadCalls_self : callsOn i (f.loadCalls machine version i) = f.loadCalls machine version i :=
  List.filter_eq_self.2 fun call hcall => by rw [target_loadCalls hcall, decide_eq_true rfl]

theorem callsOn_loadCalls_of_ne (h : j ≠ i) : callsOn i (f.loadCalls machine version j) = [] :=
  callsOn_eq_nil_iff.2 fun call hcall => by
    rw [target_loadCalls hcall, ne_eq, Option.some.injEq]
    exact h

/-! ## Functions that run on loading -/

theorem mem_loadCalls (h : call ∈ loadCalls types fs) :
    ∃ i f, call.target? = some i ∧ fs[i]? = some f ∧ f.isOnLoad := by
  obtain ⟨⟨f, i⟩, hentry, hcall⟩ := List.mem_flatMap.1 h
  obtain ⟨hf, ho⟩ := mem_onLoads_iff.1 hentry
  exact ⟨i, f, target_loadCalls hcall, hf, ho⟩

/-- Of the calls for several functions, those on one of them are its own. -/
theorem callsOn_flatMap_loadCalls {entries : List (Function × Nat)} (hd : (entries.map (·.2)).Nodup)
    (h : (f, i) ∈ entries) :
    callsOn i (entries.flatMap fun entry => entry.1.loadCalls machine version entry.2) =
      f.loadCalls machine version i := by
  induction entries with
  | nil => cases h
  | cons entry rest ih =>
    obtain ⟨hi, hd⟩ := List.nodup_cons.1 hd
    rw [List.flatMap_cons, callsOn_append]
    rcases List.mem_cons.1 h with rfl | h
    · have hrest : callsOn i (rest.flatMap fun entry => entry.1.loadCalls machine version entry.2) = [] := by
        refine callsOn_eq_nil_iff.2 fun call hcall htarget => hi ?_
        obtain ⟨other, hother, hcall⟩ := List.mem_flatMap.1 hcall
        rw [target_loadCalls hcall, Option.some.injEq] at htarget
        exact List.mem_map.2 ⟨other, hother, htarget⟩
      rw [hrest, callsOn_loadCalls_self, List.append_nil]
    · have hne : entry.2 ≠ i := fun heq => hi (List.mem_map.2 ⟨(f, i), h, heq.symm⟩)
      rw [callsOn_loadCalls_of_ne hne, List.nil_append, ih hd h]

theorem callsOn_loadCalls (types : TypeMap) (hf : fs[i]? = some f) (ho : f.isOnLoad) :
    callsOn i (loadCalls types fs) =
      f.loadCalls ((types Signature.machineType).getD "") ((types Signature.versionType).getD "") i := by
  refine callsOn_flatMap_loadCalls ?_ (mem_onLoads_iff.2 ⟨hf, ho⟩)
  rw [map_snd_onLoads]
  exact (Inventory.onLoad_sorted fs).imp Nat.ne_of_lt

/-! ## Native functions -/

theorem mem_calls_iff {v : Verdict} :
    call ∈ v.calls ↔ ∃ i signature, v = .assigned i signature ∧
      call = .replaceSignature i signature.returnType signature.params := by
  cases v <;> simp [Verdict.calls]

/-- Methods change native functions only. -/
theorem native_of_mem_calls (h : call ∈ methods.flatMap fun m => (judge types methods fs m).calls) :
    ∃ i f, call.target? = some i ∧ fs[i]? = some f ∧ f.isNative := by
  obtain ⟨m, hm, hcall⟩ := List.mem_flatMap.1 h
  obtain ⟨i, signature, hj, rfl⟩ := mem_calls_iff.1 hcall
  obtain ⟨f, hf⟩ := (judge_eq_assigned_iff hm).1 hj
  exact ⟨i, f, rfl, hf.stands.here, hf.stands.native⟩

/-- Of the calls for several methods, those on a function come from the methods with its name as a symbol. -/
theorem callsOn_flatMap_calls (hf : fs[i]? = some f) (part : List Method) :
    callsOn i (part.flatMap fun m => (judge types methods fs m).calls) =
      (Symbol.owners part f.name).flatMap fun m => callsOn i (judge types methods fs m).calls := by
  induction part with
  | nil => rfl
  | cons m rest ih =>
    rw [List.flatMap_cons, callsOn_append, ih, Symbol.owners, Symbol.owners, List.filter_cons]
    split
    · rw [List.flatMap_cons]
    · rename_i hne
      suffices hnil : callsOn i (judge types methods fs m).calls = [] by
        rw [hnil]
        rfl
      refine callsOn_eq_nil_iff.2 fun call hcall htarget => hne ?_
      obtain ⟨j, signature, hj, rfl⟩ := mem_calls_iff.1 hcall
      obtain rfl : j = i := Option.some.inj htarget
      have hg := grounds types methods fs m
      rw [hj] at hg
      cases hg with
      | assigned alone stands named missing =>
        obtain rfl := Option.some.inj (hf.symm.trans stands.here)
        exact decide_eq_true named.symm

/-- A method whose call is for a function is the only one with its symbol. -/
theorem callsOn_calls (hf : fs[i]? = some f) (types : TypeMap) (methods : List Method) :
    callsOn i (methods.flatMap fun m => (judge types methods fs m).calls) = [] ∨ ∃ returnType params,
      callsOn i (methods.flatMap fun m => (judge types methods fs m).calls) = [.replaceSignature i returnType params] := by
  rw [callsOn_flatMap_calls hf]
  by_cases hall : ∀ m ∈ Symbol.owners methods f.name, callsOn i (judge types methods fs m).calls = []
  · exact .inl (List.flatMap_eq_nil_iff.2 hall)
  · push Not at hall
    obtain ⟨m, hm, hne⟩ := hall
    obtain ⟨call, hcall⟩ := List.exists_mem_of_ne_nil _ hne
    obtain ⟨hcall, htarget⟩ := List.mem_filter.1 hcall
    obtain ⟨j, signature, hj, rfl⟩ := mem_calls_iff.1 hcall
    obtain rfl : j = i := Option.some.inj (of_decide_eq_true htarget)
    obtain ⟨g, hg⟩ := (judge_eq_assigned_iff (List.mem_filter.1 hm).1).1 hj
    obtain rfl := Option.some.inj (hf.symm.trans hg.stands.here)
    refine .inr ⟨signature.returnType, signature.params, ?_⟩
    rw [hg.alone, List.flatMap_singleton, hj]
    simp [callsOn, Verdict.calls, Call.target?]

/-! ## All calls -/

/-- A function that is not of the kind that the calls are for is not changed. -/
theorem callsOn_eq_nil {kind : Function → Bool}
    (h : ∀ call ∈ calls, ∃ i f, call.target? = some i ∧ fs[i]? = some f ∧ kind f)
    (hi : ∀ f, fs[i]? = some f → ¬ kind f) : callsOn i calls = [] := by
  refine callsOn_eq_nil_iff.2 fun call hcall htarget => ?_
  obtain ⟨j, f, hj, hf, hkind⟩ := h call hcall
  obtain rfl : j = i := Option.some.inj (hj.symm.trans htarget)
  exact hi f hf hkind

theorem disciplined_of_filter {comes : Prop} (hcalls : calls.filter (!·.isLookUp) = .listFunctions :: (loads ++ applies))
    (hloads : loads <+: loadCalls types fs) (hall : comes → loads = loadCalls types fs) (hnone : ¬ comes → applies = [])
    (happlies : applies <+: methods.flatMap fun m => (judge types methods fs m).calls) :
    Disciplined types fs comes calls := by
  have hload : ∀ call ∈ loads, ∃ i f, call.target? = some i ∧ fs[i]? = some f ∧ f.isOnLoad :=
    fun call hcall => mem_loadCalls (hloads.subset hcall)
  have hnative : ∀ call ∈ applies, ∃ i f, call.target? = some i ∧ fs[i]? = some f ∧ f.isNative :=
    fun call hcall => native_of_mem_calls (happlies.subset hcall)
  have hsplit : ∀ i, callsOn i calls = callsOn i loads ++ callsOn i applies := by
    intro i
    rw [← callsOn_filter, hcalls, ← callsOn_append]
    rfl
  refine ⟨⟨loads, applies, hcalls, hloads, hall, hnone, hnative⟩, fun i f hf hn => ?_, fun i f hf ho => ?_,
    fun i hi => ?_⟩
  · have hfirst : callsOn i applies <+: callsOn i (methods.flatMap fun m => (judge types methods fs m).calls) :=
      happlies.filter _
    have hnil : callsOn i loads = [] := by
      refine callsOn_eq_nil hload fun g hg ho => ?_
      obtain rfl := Option.some.inj (hf.symm.trans hg)
      rw [Function.isNative_of_isOnLoad ho] at hn
      cases hn
    rw [hsplit, hnil, List.nil_append]
    rcases callsOn_calls hf types methods with hno | ⟨returnType, params, hone⟩
    · rw [hno] at hfirst
      exact .inl (List.prefix_nil.1 hfirst)
    · rw [hone] at hfirst
      rcases List.prefix_cons_iff.1 hfirst with hno | ⟨rest, hrest, hnil⟩
      · exact .inl hno
      · exact .inr ⟨returnType, params, by rw [List.prefix_nil.1 hnil] at hrest; exact hrest⟩
  · have hnil : callsOn i applies = [] := by
      refine callsOn_eq_nil hnative fun g hg => ?_
      obtain rfl := Option.some.inj (hf.symm.trans hg)
      rw [Function.isNative_of_isOnLoad ho]
      exact Bool.false_ne_true
    rw [hsplit, hnil, List.append_nil, ← callsOn_loadCalls types hf ho]
    exact ⟨hloads.filter _, fun h => by rw [hall h]⟩
  · rw [hsplit, callsOn_eq_nil hload fun f hf => (hi f hf).2, callsOn_eq_nil hnative fun f hf => (hi f hf).1]
    rfl

end Calls

theorem disciplined_of_exec {policy : Policy} {methods : List Method} {s t : Session}
    {r : Except ActionFault Report} {made : List Call} (h : exec (run policy methods) s = (r, t))
    (hmade : t.calls = s.calls ++ made) : Disciplined s.typeOf s.functions (ComesToMethods s) made := by
  obtain ⟨loads, applies, hdeeds, hloads, hall, hnone, happlies⟩ := run_deeds policy methods s
  rw [h, Session.deeds, hmade, List.filter_append] at hdeeds
  exact disciplined_of_filter (List.append_cancel_left hdeeds) hloads hall hnone happlies

end JniSignatures.Pass
