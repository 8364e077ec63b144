import Mathlib
import JniSignatures.Proofs.Pass.Course
/-!
# What a pass does

What a pass does is said here without its order of work. The functions that run on loading are loaded.
A function gets the signature of the one method that has its name as a symbol, unless a later function
takes its place or the catalog lacks a type (`Applies`). All other functions stay as they are, and each
method is reported by how it fares (`result_of_return`). A pass that fails has done the same up to the
point where it fails (`state_of_failure`).
-/

namespace JniSignatures.Pass

/-- The function at a position is to get the signature of a method: its name leads to it, the method is
the only one with that symbol, and the catalog has all types of the method. -/
structure Applies (types : TypeMap) (methods : List Method) (fs : List Function) (i : Nat) (f : Function)
    (m : Method) (signature : Signature) : Prop where
  stands : Inventory.Stands fs i f
  alone : Symbol.owners methods f.name = [m]
  fits : Signature.Fits types m signature

/-- What the functions are when those that run on loading are loaded and some methods are applied. -/
structure Changed (types : TypeMap) (methods : List Method) (fs : List Function) (done : List Method)
    (gs : List Function) : Prop where
  length : gs.length = fs.length
  loaded : ∀ (i : Nat) (f : Function), fs[i]? = some f → f.isOnLoad → ∃ machine version,
    types Signature.machineType = some machine ∧ types Signature.versionType = some version ∧
      gs[i]? = some (f.atLoad machine version)
  applied : ∀ i f m signature, m ∈ done → Applies types methods fs i f m signature →
    gs[i]? = some { f with params := signature.params, returnType := signature.returnType }
  kept : ∀ (i : Nat) (f : Function), fs[i]? = some f → ¬ f.isOnLoad →
    (∀ m ∈ done, ∀ signature, ¬ Applies types methods fs i f m signature) → gs[i]? = some f

/-- What a pass that returns reports of a method. -/
inductive Fares (policy : Policy) (types : TypeMap) (methods : List Method) (fs : List Function)
    (m : Method) : Outcome → Prop
  | shared (several : 1 < (Symbol.owners methods (Symbol.ofName m.qualifiedName)).length) :
      Fares policy types methods fs m (unsupportedOutcome m (.overloaded m.qualifiedName))
  | unmatched (alone : Symbol.owners methods (Symbol.ofName m.qualifiedName) = [m])
      (unnamed : ∀ i f, Inventory.Stands fs i f → f.name ≠ Symbol.ofName m.qualifiedName) :
      Fares policy types methods fs m
        ⟨some m.qualifiedName, some (Symbol.ofName m.qualifiedName), .noMatch, none, none⟩
  | lacking {i : Nat} {f : Function} {typeName : Text} (skips : policy = .skip)
      (stands : Inventory.Stands fs i f) (alone : Symbol.owners methods f.name = [m])
      (missing : Signature.missing? types m = some typeName) :
      Fares policy types methods fs m ⟨some m.qualifiedName, some f.name, .typeError, none,
        some (ActionFault.typeMissing typeName (Catalog.path typeName)).message⟩
  | applied {i : Nat} {f : Function} {signature : Signature}
      (applies : Applies types methods fs i f m signature) :
      Fares policy types methods fs m
        ⟨some m.qualifiedName, some f.name, .applied, some (m.argumentTypes.length + 2 : Nat), none⟩

/-- Why a pass stops at a method. -/
inductive Stops (policy : Policy) (types : TypeMap) (methods : List Method) (fs : List Function)
    (m : Method) : ActionFault → Prop
  | lacking {typeName : Text} (aborts : policy = .abort)
      (missing : Signature.missing? types m = some typeName) :
      Stops policy types methods fs m (.typeMissing typeName (Catalog.path typeName))
  | refused {i : Nat} {f : Function} {signature : Signature} {message : String}
      (applies : Applies types methods fs i f m signature)
      (refusal : f.refusal = some ⟨.signature, message⟩) :
      Stops policy types methods fs m (.refused message)

/-- What a pass that fails leaves. -/
inductive Leaves (policy : Policy) (types : TypeMap) (methods : List Method) (fs : List Function) :
    ActionFault → List Function → Prop
  /-- A type of the functions that run on loading is missing: nothing has changed. -/
  | untouched {f : Function} {typeName : Text} (mem : f ∈ fs) (runs : f.isOnLoad)
      (missing : loadMissing? types = some typeName) :
      Leaves policy types methods fs (.typeMissing typeName (Catalog.path typeName)) fs
  /-- The host refuses to change a function that runs on loading: those before it are loaded, and of the
  changes to itself it has the ones that come before the refusal. -/
  | partly {k : Nat} {f : Function} {r : Refusal} {gs : List Function} {machine version : String}
      (hasMachine : types Signature.machineType = some machine)
      (hasVersion : types Signature.versionType = some version)
      (here : fs[k]? = some f) (runs : f.isOnLoad) (refusal : f.refusal = some r)
      (met : f.params = [] ↔ r.setter = .signature)
      (length : gs.length = fs.length)
      (earlier : ∀ (i : Nat) (g : Function), i < k → fs[i]? = some g → g.isOnLoad → gs[i]? = some (g.atLoad machine version))
      (left : gs[k]? = some (f.untilRefusal machine r.setter))
      (kept : ∀ (i : Nat) (g : Function), fs[i]? = some g → i ≠ k → ¬ (i < k ∧ g.isOnLoad) → gs[i]? = some g) :
      Leaves policy types methods fs (.refused r.message) gs
  /-- The pass stops at a method: those before it are applied, and its own function has not changed. -/
  | stopped {before after : List Method} {m : Method} {e : ActionFault} {gs : List Function}
      (split : methods = before ++ m :: after) (stops : Stops policy types methods fs m e)
      (changed : Changed types methods fs before gs)
      (own : ∀ i f, Inventory.Stands fs i f → f.name = Symbol.ofName m.qualifiedName → gs[i]? = some f) :
      Leaves policy types methods fs e gs

/-! ## Verdicts -/

section Verdicts

variable {policy : Policy} {types : TypeMap} {methods done : List Method} {fs : List Function}
  {i : Nat} {f g : Function} {m n : Method} {signature : Signature}

theorem Applies.mem (h : Applies types methods fs i f m signature) :
    m ∈ methods ∧ Symbol.ofName m.qualifiedName = f.name := by
  have hm : m ∈ Symbol.owners methods f.name := by
    rw [h.alone]
    exact List.mem_singleton_self m
  obtain ⟨hm, hs⟩ := List.mem_filter.1 hm
  exact ⟨hm, by simpa using hs⟩

/-- At most one method is applied to a function. -/
theorem Applies.unique {signature' : Signature} (h : Applies types methods fs i f m signature)
    (h' : Applies types methods fs i g n signature') : f = g ∧ m = n ∧ signature = signature' := by
  obtain rfl : f = g := Option.some.inj (h.stands.here.symm.trans h'.stands.here)
  obtain rfl : m = n := by simpa using h.alone.symm.trans h'.alone
  exact ⟨rfl, rfl, h.fits.unique h'.fits⟩

theorem judge_eq_assigned_iff (hm : m ∈ methods) :
    judge types methods fs m = .assigned i signature ↔
      ∃ f, Applies types methods fs i f m signature := by
  constructor
  · intro h
    have hg := grounds types methods fs m
    rw [h] at hg
    cases hg with
    | assigned alone stands named missing =>
      refine ⟨_, stands, ?_, Signature.fits_described missing⟩
      rw [named]
      exact (Symbol.owners_eq_singleton_iff hm).2 alone
  · rintro ⟨f, hf⟩
    obtain ⟨-, hn⟩ := hf.mem
    have hs := (Symbol.owners_eq_singleton_iff hm).1 (hn ▸ hf.alone)
    have hl := Inventory.lookup_index_iff.2 ⟨f, hf.stands, hn.symm⟩
    rw [judge, verdict, if_neg (by simpa using hs), hl]
    simp [hf.fits.missing_eq_none, hf.fits.eq_described]

theorem newSignature?_eq_some_iff (hd : done ⊆ methods) :
    newSignature? (judge types methods fs) done i = some signature ↔
      ∃ m ∈ done, ∃ f, Applies types methods fs i f m signature := by
  constructor
  · intro h
    obtain ⟨m, hm, hj⟩ := newSignature?_eq_some h
    exact ⟨m, hm, (judge_eq_assigned_iff (hd hm)).1 hj⟩
  · rintro ⟨m, hm, f, hf⟩
    cases hs : newSignature? (judge types methods fs) done i with
    | none =>
      exact absurd ((judge_eq_assigned_iff (hd hm)).2 ⟨f, hf⟩) (newSignature?_eq_none_iff.1 hs m hm _)
    | some signature' =>
      obtain ⟨n, hn, hj⟩ := newSignature?_eq_some hs
      obtain ⟨g, hg⟩ := (judge_eq_assigned_iff (hd hn)).1 hj
      rw [(hf.unique hg).2.2]

/-- The functions that a pass has reached with some of its methods are as they should be. -/
theorem changed_reached (loads : LoadsFreely types fs) (hd : done ⊆ methods) :
    Changed types methods fs done (reached types methods fs done) := by
  refine ⟨by simp [reached], fun i f hf ho => ?_, fun i f m signature hm ha => ?_, fun i f hf ho hn => ?_⟩
  · obtain ⟨⟨machine, version, hm, hv⟩, -⟩ := loads f (List.mem_of_getElem? hf) ho
    refine ⟨machine, version, hm, hv, ?_⟩
    rw [reached_getElem? hf, if_pos ho, loaded, hm, hv]
    rfl
  · have ho : ¬ f.isOnLoad := fun ho => by simpa [Function.isNative_of_isOnLoad ho] using ha.stands.native
    rw [reached_getElem? ha.stands.here, if_neg ho, (newSignature?_eq_some_iff hd).2 ⟨m, hm, f, ha⟩]
    rfl
  · have hnone : newSignature? (judge types methods fs) done i = none := by
      refine Option.eq_none_iff_forall_ne_some.2 fun signature hs => ?_
      obtain ⟨m, hm, g, hg⟩ := (newSignature?_eq_some_iff hd).1 hs
      obtain rfl : f = g := Option.some.inj (hf.symm.trans hg.stands.here)
      exact hn m hm signature hg
    rw [reached_getElem? hf, if_neg ho, hnone]
    rfl

/-- A method without a fault is reported by how it fares. -/
theorem fares_outcome (hm : m ∈ methods) (h : (judge types methods fs m).fault? policy fs = none) :
    Fares policy types methods fs m ((judge types methods fs m).outcome m) := by
  have hg := grounds types methods fs m
  cases hj : judge types methods fs m with
  | shared =>
    rw [hj] at hg
    cases hg with
    | shared several => exact .shared (Symbol.mem_shared_iff.1 several)
  | unmatched =>
    rw [hj] at hg
    cases hg with
    | unmatched alone unnamed => exact .unmatched ((Symbol.owners_eq_singleton_iff hm).2 alone) unnamed
  | lacking typeName =>
    rw [hj] at h hg
    cases hg with
    | lacking alone stands named missing =>
      have skips : policy = .skip := by
        cases policy with
        | abort => simp [Verdict.fault?] at h
        | skip => rfl
      rw [Verdict.outcome, ← named]
      exact .lacking skips stands (named ▸ (Symbol.owners_eq_singleton_iff hm).2 alone) missing
  | assigned i signature =>
    obtain ⟨f, hf⟩ := (judge_eq_assigned_iff hm).1 hj
    rw [Verdict.outcome, hf.mem.2, hf.fits.length]
    exact .applied hf

/-- A method is reported as applied exactly when it is. -/
theorem Fares.applied_iff {o : Outcome} (h : Fares policy types methods fs m o) :
    o.status = .applied ↔ ∃ i f signature, Applies types methods fs i f m signature := by
  cases h with
  | shared several =>
    refine iff_of_false (show Status.unsupported ≠ .applied by decide) ?_
    rintro ⟨i, f, signature, hf⟩
    rw [hf.mem.2, hf.alone] at several
    simp at several
  | unmatched alone unnamed =>
    refine iff_of_false (show Status.noMatch ≠ .applied by decide) ?_
    rintro ⟨i, f, signature, hf⟩
    exact unnamed i f hf.stands hf.mem.2.symm
  | lacking skips stands alone missing =>
    refine iff_of_false (show Status.typeError ≠ .applied by decide) ?_
    rintro ⟨i, f, signature, hf⟩
    rw [hf.fits.missing_eq_none] at missing
    cases missing
  | applied applies => exact iff_of_true rfl ⟨_, _, _, applies⟩

end Verdicts

/-! ## A pass that returns -/

/-- What a pass that returns does to each function, and reports of each method. -/
theorem result_of_return {policy : Policy} {methods : List Method} {s t : Session} {r : Report}
    (h : exec (run policy methods) s = (.ok r, t)) :
    Changed s.typeOf methods s.functions methods t.functions ∧
      List.Forall₂ (fun m o => Fares policy s.typeOf methods s.functions m o ∧
        (o.status = .applied ↔ ∃ i f signature, Applies s.typeOf methods s.functions i f m signature))
        methods r.outcomes := by
  generalize ht : t.functions = gs
  have hc := ht ▸ course_of_exec h
  generalize hr : (Except.ok r : Except ActionFault Report) = result at hc
  cases hc with
  | returns loads free =>
    cases hr
    refine ⟨changed_reached loads (List.Subset.refl methods), ?_⟩
    rw [reportOf, List.forall₂_map_right_iff, List.forall₂_same]
    intro m hm
    have hf := fares_outcome hm (free m hm)
    exact ⟨hf, hf.applied_iff⟩
  | _ => cases hr

/-- A library with a function that runs on loading, which the host may refuse to change, and one
native function. -/
def library (refusal : Option Refusal) : Session :=
  { functions :=
      [⟨"JNI_OnLoad", none, [⟨"p0", "undefined"⟩, ⟨"p1", "undefined"⟩], "undefined", refusal⟩,
        ⟨"Java_A_f", none, [], "undefined", none⟩]
    types := [("JNIEnv *", "E"), ("JavaVM *", "V"), ("jint", "I"), ("jobject", "O")]
    known := [], calls := [], printed := [] }

/-- The method of the native function in `library`. -/
def libraryMethod : Method :=
  ⟨"A.f", ["jint"], "jint", false⟩

theorem library_returns :
    ∃ r t, exec (run .abort [libraryMethod]) (library none) = (.ok r, t) ∧
      t.functions =
        [⟨"JNI_OnLoad", none, [⟨"vm", "V"⟩, ⟨"p1", "undefined"⟩], "I", none⟩,
          ⟨"Java_A_f", none, [⟨"env", "E"⟩, ⟨"thiz", "O"⟩, ⟨"a0", "I"⟩], "I", none⟩] ∧
      Changed (library none).typeOf [libraryMethod] (library none).functions [libraryMethod] t.functions :=
  ⟨_, _, rfl, rfl,
    (result_of_return (show exec (run .abort [libraryMethod]) (library none) = (.ok _, _) from rfl)).1⟩

/-! ## A pass that fails -/

section Failure

variable {policy : Policy} {types : TypeMap} {methods before after : List Method} {fs : List Function}
  {m : Method} {e : ActionFault}

/-- A method with a fault has a symbol of its own. -/
theorem owners_of_fault (hm : m ∈ methods) (h : (judge types methods fs m).fault? policy fs = some e) :
    Symbol.owners methods (Symbol.ofName m.qualifiedName) = [m] := by
  refine (Symbol.owners_eq_singleton_iff hm).2 fun hs => ?_
  rw [judge, verdict, if_pos (by simpa using hs)] at h
  cases h

theorem stops_of_fault (hm : m ∈ methods) (h : (judge types methods fs m).fault? policy fs = some e) :
    Stops policy types methods fs m e := by
  have hg := grounds types methods fs m
  cases hj : judge types methods fs m with
  | lacking typeName =>
    rw [hj] at h hg
    cases hg with
    | lacking alone stands named missing =>
      cases policy with
      | abort =>
        obtain rfl : _ = e := by simpa [Verdict.fault?] using h
        exact .lacking rfl missing
      | skip => simp [Verdict.fault?] at h
  | assigned i signature =>
    obtain ⟨f, hf⟩ := (judge_eq_assigned_iff hm).1 hj
    obtain ⟨message, hr, rfl⟩ : ∃ message, f.refusalOf .signature = some message ∧ .refused message = e := by
      simpa [hj, Verdict.fault?, hf.stands.here] using h
    exact .refused hf (Function.refusalOf_eq_some_iff.1 hr)
  | _ =>
    rw [hj] at h
    cases h

/-- A method that is the only one with its symbol is declared once. -/
theorem not_mem_before (h : Symbol.owners (before ++ m :: after) (Symbol.ofName m.qualifiedName) = [m]) :
    m ∉ before := by
  intro hb
  have hlen := congrArg List.length h
  have hin : 0 < (Symbol.owners before (Symbol.ofName m.qualifiedName)).length :=
    List.length_pos_of_mem (List.mem_filter.2 ⟨hb, by simp⟩)
  simp only [Symbol.owners, List.filter_append, List.length_append, List.filter_cons, decide_true,
    if_true, List.length_cons, List.length_nil] at hlen hin
  omega

theorem leaves_of_course {gs : List Function} (h : Course policy types methods fs (.error e) gs) :
    Leaves policy types methods fs e gs := by
  cases h with
  | lacks mem runs missing => exact .untouched mem runs missing
  | @breaksOff k f r has here runs met free =>
    obtain ⟨machine, version, hm, hv⟩ := has
    obtain ⟨refusal, hset⟩ := Function.onLoadRefusal?_eq_some_iff.1 met
    refine .partly hm hv here runs refusal hset (by simp [brokenOff]) ?_ ?_ ?_
    · intro i g hik hg hgo
      rw [brokenOff_getElem? hg, if_pos ⟨hgo, hik⟩, loaded, hm, hv]
      rfl
    · rw [brokenOff_getElem? here, if_neg fun h => Nat.lt_irrefl k h.2, if_pos rfl, hm]
      rfl
    · intro i g hg hik hn
      rw [brokenOff_getElem? hg, if_neg fun h => hn ⟨h.2, h.1⟩, if_neg hik]
  | @stops before after m e loads split free fault =>
    have hm : m ∈ methods := split ▸ List.mem_append_right _ List.mem_cons_self
    have hsub : before ⊆ methods := fun b hb => split ▸ List.mem_append_left _ hb
    have alone := owners_of_fault hm fault
    have hnot : m ∉ before := not_mem_before (split ▸ alone)
    have changed := changed_reached loads hsub
    refine .stopped split (stops_of_fault hm fault) changed fun i f hf hn => ?_
    have ho : ¬ f.isOnLoad := fun ho => by simpa [Function.isNative_of_isOnLoad ho] using hf.native
    refine changed.kept i f hf.here ho fun b hb signature hb' => hnot ?_
    have hbm : [b] = [m] := hb'.alone.symm.trans (hn ▸ alone)
    exact List.singleton_inj.1 hbm ▸ hb

end Failure

theorem loadMissing?_ne_none_iff {types : TypeMap} : (∃ typeName, loadMissing? types = some typeName) ↔
    types Signature.machineType = none ∨ types Signature.versionType = none := by
  rw [← Option.isSome_iff_exists, loadMissing?, List.find?_isSome]
  simp

/-- Under `skip` only the functions that run on loading can make a missing type end the pass. -/
theorem skip_typeMissing_iff (methods : List Method) (s : Session) :
    (∃ typeName path t, exec (run .skip methods) s = (.error (.typeMissing typeName path), t)) ↔
      (∃ f ∈ s.functions, f.isOnLoad) ∧ ∃ typeName, loadMissing? s.typeOf = some typeName := by
  obtain ⟨r, t, h⟩ : ∃ r t, exec (run .skip methods) s = (r, t) := ⟨_, _, rfl⟩
  have hc := course_of_exec h
  generalize t.functions = gs at hc
  rw [h]
  cases hc with
  | lacks mem runs missing => exact iff_of_true ⟨_, _, _, rfl⟩ ⟨⟨_, mem, runs⟩, _, missing⟩
  | returns loads _ =>
    refine iff_of_false (by simp) ?_
    rintro ⟨⟨f, hf, ho⟩, typeName, missing⟩
    rw [loadMissing?_eq_none_iff.2 (loads f hf ho).1] at missing
    cases missing
  | breaksOff has _ _ _ _ =>
    refine iff_of_false (by simp) ?_
    rintro ⟨-, typeName, missing⟩
    rw [loadMissing?_eq_none_iff.2 has] at missing
    cases missing
  | stops loads split _ fault =>
    refine iff_of_false ?_ ?_
    · rintro ⟨typeName, path, u, he⟩
      obtain ⟨rfl, -⟩ : _ = ActionFault.typeMissing typeName path ∧ t = u := by simpa using he
      cases stops_of_fault (split ▸ List.mem_append_right _ List.mem_cons_self) fault with
      | lacking aborts _ => cases aborts
    · rintro ⟨⟨f, hf, ho⟩, typeName, missing⟩
      rw [loadMissing?_eq_none_iff.2 (loads f hf ho).1] at missing
      cases missing

/-- What a pass that fails leaves; and under `skip` a missing type ends the pass exactly when a function
that runs on loading needs it. -/
theorem state_of_failure (policy : Policy) (methods : List Method) (s : Session) :
    (∀ e t, exec (run policy methods) s = (.error e, t) →
      Leaves policy s.typeOf methods s.functions e t.functions) ∧
    ((∃ typeName path t, exec (run .skip methods) s = (.error (.typeMissing typeName path), t)) ↔
      (∃ f ∈ s.functions, f.isOnLoad) ∧
        (s.typeOf Signature.machineType = none ∨ s.typeOf Signature.versionType = none)) := by
  refine ⟨fun e t h => leaves_of_course (course_of_exec h), ?_⟩
  rw [skip_typeMissing_iff, loadMissing?_ne_none_iff]

theorem library_fails :
    ∃ t, exec (run .skip [libraryMethod]) (library (some ⟨.returnType, "no"⟩)) = (.error (.refused "no"), t) ∧
      t.functions =
        [⟨"JNI_OnLoad", none, [⟨"vm", "V"⟩, ⟨"p1", "undefined"⟩], "undefined", some ⟨.returnType, "no"⟩⟩,
          ⟨"Java_A_f", none, [], "undefined", none⟩] ∧
      Leaves .skip (library (some ⟨.returnType, "no"⟩)).typeOf [libraryMethod] (library (some ⟨.returnType, "no"⟩)).functions
        (.refused "no") t.functions :=
  ⟨_, rfl, rfl, (state_of_failure .skip [libraryMethod] (library (some ⟨.returnType, "no"⟩))).1 _ _ rfl⟩

end JniSignatures.Pass
