import Mathlib
import JniSignatures.Proofs.Pass.Course
/-!
# Running a pass again

However a pass ends, the functions that it leaves are completed by a full pass to the same as those it
began with (`Course.absorbed`): it keeps names and comments, a function that runs on loading is loaded
from what a refusal leaves of it, and the last signature that a function gets does not depend on those
before. So a pass may be run again until it returns (`rerun_repairs`).
-/

namespace JniSignatures

/-- The function without what the host refuses. -/
def Function.unrefused (f : Function) : Function :=
  { f with refusal := none }

namespace Pass

/-- A full pass makes of some functions what it makes of the others. -/
structure Absorbed (types : TypeMap) (methods : List Method) (fs gs : List Function) : Prop where
  labels : gs.map Function.label = fs.map Function.label
  completed : reached types methods gs methods = reached types methods fs methods

section Absorption

variable {policy : Policy} {types : TypeMap} {methods done : List Method} {fs gs : List Function}
  {result : Except ActionFault Report}

/-! ## What a verdict depends on -/

theorem judge_congr (h : gs.map Function.label = fs.map Function.label) :
    judge types methods gs = judge types methods fs := by
  unfold judge
  rw [Inventory.ofFunctions_congr h]

theorem reportOf_congr (h : gs.map Function.label = fs.map Function.label) :
    reportOf types methods gs = reportOf types methods fs := by
  unfold reportOf
  rw [judge_congr h, Inventory.ofFunctions_congr h]

theorem label_unrefused (fs : List Function) :
    (fs.map Function.unrefused).map Function.label = fs.map Function.label := by
  rw [List.map_map]
  rfl

theorem reached_unrefused (types : TypeMap) (methods : List Method) (fs : List Function) :
    reached types methods (fs.map Function.unrefused) methods =
      (reached types methods fs methods).map Function.unrefused := by
  refine List.ext_getElem? fun i => ?_
  rw [reached, judge_congr (label_unrefused fs), reached, List.getElem?_mapIdx, List.getElem?_map,
    List.getElem?_map, List.getElem?_mapIdx, Option.map_map, Option.map_map]
  refine congrArg (Option.map · fs[i]?) (funext fun f => ?_)
  rw [Function.comp_apply, Function.comp_apply, show f.unrefused.isOnLoad = f.isOnLoad from rfl]
  cases f.isOnLoad with
  | true => rfl
  | false => cases newSignature? (judge types methods fs) methods i <;> rfl

/-! ## What a pass leaves is absorbed -/

/-- Functions that agree position by position in what a full pass makes of them are absorbed. -/
theorem absorbed_of_getElem? (hl : gs.length = fs.length)
    (h : ∀ i f, fs[i]? = some f → ∃ g, gs[i]? = some g ∧ g.label = f.label ∧
      (f.isOnLoad → loaded types g = loaded types f) ∧
      (¬ f.isOnLoad → g.resigned (newSignature? (judge types methods fs) methods i) =
        f.resigned (newSignature? (judge types methods fs) methods i))) :
    Absorbed types methods fs gs := by
  have labels : gs.map Function.label = fs.map Function.label := by
    refine List.ext_getElem? fun i => ?_
    rw [List.getElem?_map, List.getElem?_map]
    cases hf : fs[i]? with
    | none => rw [List.getElem?_eq_none_iff.2 (hl ▸ List.getElem?_eq_none_iff.1 hf)]
    | some f =>
      obtain ⟨g, hg, hlabel, -⟩ := h i f hf
      rw [hg, Option.map_some, hlabel]
      rfl
  refine ⟨labels, List.ext_getElem? fun i => ?_⟩
  cases hf : fs[i]? with
  | none =>
    have hg : gs[i]? = none := List.getElem?_eq_none_iff.2 (hl ▸ List.getElem?_eq_none_iff.1 hf)
    rw [reached, reached, List.getElem?_mapIdx, List.getElem?_mapIdx, hf, hg]
    rfl
  | some f =>
    obtain ⟨g, hg, hlabel, hload, hsign⟩ := h i f hf
    rw [reached_getElem? hg, reached_getElem? hf, judge_congr labels, Function.isOnLoad_congr hlabel]
    by_cases ho : f.isOnLoad
    · rw [if_pos ho, if_pos ho, hload ho]
    · rw [if_neg ho, if_neg ho, hsign ho]

theorem absorbed_self (types : TypeMap) (methods : List Method) (fs : List Function) :
    Absorbed types methods fs fs :=
  ⟨rfl, rfl⟩

theorem absorbed_reached (hd : done ⊆ methods) :
    Absorbed types methods fs (reached types methods fs done) := by
  refine absorbed_of_getElem? (by simp [reached]) fun i f hf => ⟨_, reached_getElem? hf, ?_⟩
  by_cases ho : f.isOnLoad
  · rw [if_pos ho]
    exact ⟨rfl, fun _ => rfl, fun hn => absurd ho hn⟩
  · rw [if_neg ho]
    refine ⟨?_, fun h => absurd h ho, fun _ => ?_⟩
    · cases newSignature? (judge types methods fs) done i <;> rfl
    · rw [resigned_resigned]
      cases hall : newSignature? (judge types methods fs) methods i with
      | some signature => rfl
      | none =>
        -- What all methods leave alone, some of them do.
        have hnone : newSignature? (judge types methods fs) done i = none :=
          newSignature?_eq_none_iff.2 fun m hm => newSignature?_eq_none_iff.1 hall m (hd hm)
        rw [hnone]
        rfl

theorem absorbed_brokenOff {k : Nat} {f : Function} {setter : Setter} (here : fs[k]? = some f)
    (runs : f.isOnLoad) : Absorbed types methods fs (brokenOff types fs k setter) := by
  refine absorbed_of_getElem? (by simp [brokenOff]) fun i g hg => ⟨_, brokenOff_getElem? hg, ?_⟩
  by_cases hi : g.isOnLoad ∧ i < k
  · rw [if_pos hi]
    exact ⟨rfl, fun _ => rfl, fun hn => absurd hi.1 hn⟩
  · rw [if_neg hi]
    -- Only the function that was being changed is left half done.
    by_cases hk : i = k
    · subst hk
      obtain rfl : f = g := Option.some.inj (here.symm.trans hg)
      rw [if_pos rfl]
      refine ⟨Function.untilRefusal_label _ _ _, fun _ => ?_, fun hn => absurd runs hn⟩
      exact Function.atLoad_untilRefusal _ _ _ _
    · rw [if_neg hk]
      exact ⟨rfl, fun _ => rfl, fun _ => rfl⟩

/-- Whatever a pass leaves is absorbed. -/
theorem Course.absorbed (h : Course policy types methods fs result gs) :
    Absorbed types methods fs gs := by
  cases h with
  | returns => exact absorbed_reached (List.Subset.refl methods)
  | lacks => exact absorbed_self types methods fs
  | breaksOff has here runs met free => exact absorbed_brokenOff here runs
  | stops loads split free fault =>
    exact absorbed_reached fun b hb => split ▸ List.mem_append_left _ hb

/-! ## A pass without refusals -/

/-- A pass returns if nothing speaks against it. -/
theorem Course.of_free (h : Course policy types methods fs result gs) (loads : LoadsFreely types fs)
    (free : ∀ m ∈ methods, (judge types methods fs m).fault? policy fs = none) :
    result = .ok (reportOf types methods fs) ∧ gs = reached types methods fs methods := by
  cases h with
  | returns => exact ⟨rfl, rfl⟩
  | lacks mem runs missing =>
    rw [loadMissing?_eq_none_iff.2 (loads _ mem runs).1] at missing
    cases missing
  | breaksOff has here runs met =>
    rw [(loads _ (List.mem_of_getElem? here) runs).2] at met
    cases met
  | stops _ split _ fault =>
    rw [free _ (split ▸ List.mem_append_right _ List.mem_cons_self)] at fault
    cases fault

theorem loadsFreely_congr (h : gs.map Function.label = fs.map Function.label)
    (loads : LoadsFreely types (fs.map Function.unrefused)) :
    LoadsFreely types (gs.map Function.unrefused) := by
  intro g hg ho
  obtain ⟨g, hgs, rfl⟩ := List.mem_map.1 hg
  obtain ⟨f, hf, hlabel⟩ := List.mem_map.1 (h ▸ List.mem_map_of_mem hgs : g.label ∈ fs.map Function.label)
  have hof : f.unrefused.isOnLoad := (Function.isOnLoad_congr hlabel).trans ho
  exact ⟨(loads f.unrefused (List.mem_map_of_mem hf) hof).1, rfl⟩

theorem fault?_unrefused (policy : Policy) (v : Verdict) (h : gs.length = fs.length) :
    v.fault? policy (gs.map Function.unrefused) = v.fault? policy (fs.map Function.unrefused) := by
  refine Verdict.fault?_congr ?_ policy v
  rw [List.map_map, List.map_map]
  have hall : ∀ hs : List Function, hs.map (fun f => f.unrefused.refusal) = List.replicate hs.length none :=
    fun hs => List.map_const'
  exact (hall gs).trans (h ▸ (hall fs).symm)

/-! ## A second pass -/

/-- A pass on what is absorbed goes as the one on the functions themselves, if that one returns. -/
theorem Course.again {r : Report} {ts us : List Function} (habs : Absorbed types methods fs gs)
    (h : Course policy types methods (fs.map Function.unrefused) (.ok r) ts)
    (h' : Course policy types methods (gs.map Function.unrefused) result us) :
    result = .ok r ∧ us = ts := by
  have hlabels : (gs.map Function.unrefused).map Function.label =
      (fs.map Function.unrefused).map Function.label := by
    rw [label_unrefused, label_unrefused, habs.labels]
  have hlength : gs.length = fs.length := by simpa using congrArg List.length habs.labels
  cases h with
  | returns loads free =>
    obtain ⟨rfl, rfl⟩ := h'.of_free (loadsFreely_congr habs.labels loads) fun m hm => by
      rw [judge_congr hlabels, fault?_unrefused policy _ hlength]
      exact free m hm
    rw [reportOf_congr hlabels, reached_unrefused, reached_unrefused, habs.completed]
    exact ⟨rfl, rfl⟩

/-- A pass on what a pass that returned has left reports the same and changes nothing. -/
theorem Course.still {second : Policy} {r r' : Report} {us : List Function}
    (h : Course policy types methods fs (.ok r) gs)
    (h' : Course second types methods (gs.map Function.unrefused) (.ok r') us) :
    r' = r ∧ us = gs.map Function.unrefused := by
  have habs := h.absorbed
  cases h with
  | returns =>
    cases h' with
    | returns =>
      refine ⟨?_, ?_⟩
      · rw [reportOf_congr (label_unrefused _), reportOf_congr habs.labels]
      · rw [reached_unrefused, habs.completed]

end Absorption

/-- However a first pass ends, if a second one without refusals returns on the functions that the first
one began with, then it returns on those that the first one left, with the same report, and leaves the
same functions. A pass that returns after one that did changes nothing and reports the same. -/
theorem rerun_repairs {first second : Policy} {methods : List Method} {s s' fresh left : Session}
    {e : Except ActionFault Report} (ran : exec (run first methods) s = (e, s'))
    (freshTypes : fresh.typeOf = s.typeOf) (leftTypes : left.typeOf = s.typeOf)
    (freshFunctions : fresh.functions = s.functions.map Function.unrefused)
    (leftFunctions : left.functions = s'.functions.map Function.unrefused) :
    (∀ r t, exec (run second methods) fresh = (.ok r, t) →
      ∃ u, exec (run second methods) left = (.ok r, u) ∧ u.functions = t.functions) ∧
    (∀ r r' u, e = .ok r → exec (run second methods) left = (.ok r', u) →
      r' = r ∧ u.functions = left.functions) := by
  have hfirst := course_of_exec ran
  constructor
  · intro r t h
    obtain ⟨r', u, h'⟩ : ∃ r' u, exec (run second methods) left = (r', u) := ⟨_, _, rfl⟩
    have hfresh := course_of_exec h
    have hleft := course_of_exec h'
    rw [freshTypes, freshFunctions] at hfresh
    rw [leftTypes, leftFunctions] at hleft
    obtain ⟨rfl, hu⟩ := Course.again hfirst.absorbed hfresh hleft
    exact ⟨u, h', hu⟩
  · rintro r r' u rfl h'
    have hleft := course_of_exec h'
    rw [leftTypes, leftFunctions] at hleft
    rw [leftFunctions]
    exact hfirst.still hleft

/-- A library with a function that runs on loading, which the host may refuse to change, and one
native function. -/
def refusing (refusal : Option Refusal) : Session :=
  { functions :=
      [⟨"JNI_OnLoad", none, [⟨"p0", "undefined"⟩], "undefined", refusal⟩,
        ⟨"Java_A_f", none, [], "undefined", none⟩]
    types := [("JNIEnv *", "E"), ("JavaVM *", "V"), ("jint", "I"), ("jclass", "C")]
    known := [], calls := [], printed := [] }

def refusingMethod : Method :=
  ⟨"A.f", [], "jint", true⟩

theorem refusing_repaired :
    let after := (exec (run .abort [refusingMethod]) (refusing (some ⟨.parameterType, "no"⟩))).2
    let again := { after with functions := after.functions.map Function.unrefused }
    let retried := exec (run .skip [refusingMethod]) again
    let report : Report :=
      ⟨["Java_A_f"], [], ["JNI_OnLoad"], [⟨some "A.f", some "Java_A_f", .applied, some 2, none⟩]⟩
    after.functions.head? =
        some ⟨"JNI_OnLoad", none, [⟨"vm", "undefined"⟩], "undefined", some ⟨.parameterType, "no"⟩⟩ ∧
      ∃ u, retried = (.ok report, u) ∧
        u.functions = (exec (run .skip [refusingMethod]) (refusing none)).2.functions := by
  intro after again retried report
  have ran : exec (run .abort [refusingMethod]) (refusing (some ⟨.parameterType, "no"⟩)) = (_, after) := rfl
  have fresh : (exec (run .skip [refusingMethod]) (refusing none)).1 = .ok report := by decide +kernel
  have leftTypes : again.typeOf = (refusing (some ⟨.parameterType, "no"⟩)).typeOf :=
    (Eq.refl after.typeOf).trans (typeOf_of_exec ran)
  have leftFunctions : again.functions = after.functions.map Function.unrefused := Eq.refl _
  refine ⟨by decide +kernel, ?_⟩
  exact (rerun_repairs ran (Eq.refl (refusing none).typeOf) leftTypes (by decide +kernel) leftFunctions).1
    report _ (Prod.ext fresh rfl)

end Pass

end JniSignatures
