import Mathlib
import JniSignatures.Pass.Sweep
import JniSignatures.Proofs.Pass.Fitting
import JniSignatures.Proofs.Pass.Index
/-!
# The functions that run on loading

A function that runs on loading gets the virtual machine as its first parameter and a version as its
return type, whatever it had before (`Function.atLoad`). One without parameters is changed by a single
call, any other one by three, and the host may refuse each of them: `Function.untilRefusal` is what
the calls before the refused one have made of it. The functions are changed in the order of the
program up to the first refusal.
-/

namespace JniSignatures

namespace Function

/-- The function with what all functions that run on loading have. -/
def atLoad (machine version : String) (f : Function) : Function :=
  { f with params := ⟨Signature.machineName, machine⟩ :: f.params.tail, returnType := version }

/-- The refusal that stops the changes of a function that runs on loading. Without parameters only its
signature is replaced as a whole, with parameters that is never tried. -/
def onLoadRefusal? (f : Function) : Option Refusal :=
  f.refusal.filter fun r => (f.params = []) = (r.setter = .signature)

/-- The function when the host refuses a change: its first parameter is renamed, then it gets another
type, and the return type comes last. -/
def untilRefusal (machine : String) (setter : Setter) (f : Function) : Function :=
  match setter with
  | .signature | .parameterName => f
  | .parameterType => f.modifyFirst fun p => { p with name := Signature.machineName }
  | .returnType => f.modifyFirst fun _ => ⟨Signature.machineName, machine⟩

theorem untilRefusal_label (machine : String) (setter : Setter) (f : Function) :
    (f.untilRefusal machine setter).label = f.label := by
  cases setter <;> rfl

/-- What a refusal leaves of a function is completed to the same as the function itself. -/
theorem atLoad_untilRefusal (machine version : String) (setter : Setter) (f : Function) :
    (f.untilRefusal machine setter).atLoad machine version = f.atLoad machine version := by
  obtain ⟨name, comment, params, returnType, refusal⟩ := f
  cases setter <;> cases params <;> rfl

theorem refusalOf_eq_some_iff {f : Function} {setter : Setter} {message : String} :
    f.refusalOf setter = some message ↔ f.refusal = some ⟨setter, message⟩ := by
  obtain ⟨name, comment, params, returnType, refusal⟩ := f
  rcases refusal with _ | ⟨s, m⟩
  · simp [refusalOf]
  · by_cases hs : s = setter <;> simp [refusalOf, hs]

theorem onLoadRefusal?_eq_some_iff {f : Function} {r : Refusal} :
    f.onLoadRefusal? = some r ↔ f.refusal = some r ∧ (f.params = [] ↔ r.setter = .signature) := by
  rw [onLoadRefusal?, Option.filter_eq_some_iff]
  simp

theorem refusalOf_eq_none {f : Function} {setter : Setter}
    (h : ∀ r, f.refusal = some r → r.setter ≠ setter) : f.refusalOf setter = none := by
  unfold refusalOf
  split
  · rename_i r hr
    rw [if_neg (h r hr)]
  · rfl

end Function

namespace Signature

open JniSignatures.Action (Ends)

variable {types : TypeMap} {fs : List Function} {machine version : String} {i : Nat} {f : Function}

/-! ## One function -/

theorem setFirstParameter_ends {param p : Parameter} {ps : List Parameter} (h : fs[i]? = some f)
    (hp : f.params = p :: ps) (hn : f.refusalOf .parameterName = none)
    (ht : f.refusalOf .parameterType = none) :
    Ends types fs (Action.setFirstParameter i param) (.ok ())
      (fs.set i { f with params := param :: ps }) := by
  have hi : i < fs.length := (List.getElem?_eq_some_iff.1 h).1
  refine Ends.bind (Ends.change h hn) ?_
  have hedit : { f with params := param :: ps } =
      (f.modifyFirst fun q => { q with name := param.name }).modifyFirst
        fun q => { q with type := param.type } := by
    simp [Function.modifyFirst, hp]
  rw [hedit]
  exact Ends.change_again hi ht

theorem assignOnLoad_ends (hm : types machineType = some machine) (hv : types versionType = some version)
    (h : fs[i]? = some f) (hr : f.onLoadRefusal? = none) :
    Ends types fs (assignOnLoad Catalog.resolve i) (.ok ()) (fs.set i (f.atLoad machine version)) := by
  have hi : i < fs.length := (List.getElem?_eq_some_iff.1 h).1
  refine Ends.bind (Ends.functionName h) (Ends.bind (Ends.print _) ?_)
  refine Ends.bind (Catalog.resolve_ends hm) (Ends.bind (Catalog.resolve_ends hv) ?_)
  refine Ends.get_bind fun s hs => ?_
  -- Without parameters only the whole signature is set, and with parameters only the parts.
  have hno : ∀ r, f.refusal = some r → ¬ ((f.params = []) = (r.setter = .signature)) := by
    intro r hfr
    simpa [Function.onLoadRefusal?, hfr, Option.filter_some] using hr
  obtain ⟨name, comment, params, returnType, refusal⟩ := f
  simp only at hno
  rw [hs, h]
  cases params with
  | nil =>
    refine Ends.change h (Function.refusalOf_eq_none fun r hfr hset => hno r hfr ?_)
    simp [hset]
  | cons p ps =>
    have hfree : ∀ setter : Setter, setter ≠ .signature →
        Function.refusalOf ⟨name, comment, p :: ps, returnType, refusal⟩ setter = none := by
      refine fun setter hset => Function.refusalOf_eq_none fun r hfr he => hno r hfr ?_
      simp [he, hset]
    refine Ends.bind (setFirstParameter_ends h rfl (hfree _ nofun) (hfree _ nofun)) ?_
    exact Ends.change_again hi (hfree .returnType nofun)

theorem assignOnLoad_refused {r : Refusal} (hm : types machineType = some machine)
    (hv : types versionType = some version) (h : fs[i]? = some f) (hr : f.onLoadRefusal? = some r) :
    Ends types fs (assignOnLoad Catalog.resolve i) (.error (.refused r.message))
      (fs.set i (f.untilRefusal machine r.setter)) := by
  have hi : i < fs.length := (List.getElem?_eq_some_iff.1 h).1
  have hsame : fs.set i f = fs := by
    obtain ⟨_, rfl⟩ := List.getElem?_eq_some_iff.1 h
    exact List.set_getElem_self hi
  obtain ⟨hfr, hset⟩ := Function.onLoadRefusal?_eq_some_iff.1 hr
  have hfree : ∀ setter : Setter, r.setter ≠ setter → f.refusalOf setter = none :=
    fun setter hne => Function.refusalOf_eq_none fun q hq => (Option.some.inj (hfr.symm.trans hq)) ▸ hne
  have hmet : f.refusalOf r.setter = some r.message := Function.refusalOf_eq_some_iff.2 hfr
  refine Ends.bind (Ends.functionName h) (Ends.bind (Ends.print _) ?_)
  refine Ends.bind (Catalog.resolve_ends hm) (Ends.bind (Catalog.resolve_ends hv) ?_)
  refine Ends.get_bind fun s hs => ?_
  obtain ⟨name, comment, params, returnType, refusal⟩ := f
  rw [hs, h]
  cases params with
  | nil =>
    have hsig : r.setter = .signature := hset.1 rfl
    rw [hsig] at hmet ⊢
    exact hsame.symm ▸ Ends.change_refused h hmet
  | cons p ps =>
    -- The parts are set one after the other, so a refusal of one finds those before it done.
    have hne : r.setter ≠ .signature := fun he => by simpa using hset.2 he
    cases hs : r.setter with
    | signature => exact absurd hs hne
    | parameterName =>
      rw [hs] at hmet
      exact hsame.symm ▸ Ends.bind_error (Ends.bind_error (Ends.change_refused h hmet))
    | parameterType =>
      rw [hs] at hmet
      refine Ends.bind_error (Ends.bind (Ends.change h (hfree .parameterName (by simp [hs]))) ?_)
      exact Ends.change_refused (List.getElem?_set_self hi) hmet
    | returnType =>
      rw [hs] at hmet
      refine Ends.bind (setFirstParameter_ends h rfl (hfree _ (by simp [hs])) (hfree _ (by simp [hs]))) ?_
      exact Ends.change_refused (List.getElem?_set_self hi) hmet

/-- A missing type is noticed before the function is touched. -/
theorem assignOnLoad_missing {typeName : Text} (h : fs[i]? = some f)
    (hm : [machineType, versionType].find? (fun t => (types t).isNone) = some typeName) :
    Ends types fs (assignOnLoad Catalog.resolve i)
      (.error (.typeMissing typeName (Catalog.path typeName))) fs := by
  refine Ends.bind (Ends.functionName h) (Ends.bind (Ends.print _) ?_)
  cases hmt : types machineType with
  | none =>
    have : machineType = typeName := by simpa [hmt] using hm
    exact this ▸ Ends.bind_error (Catalog.resolve_missing hmt)
  | some machine =>
    have hv : types versionType = none ∧ versionType = typeName := by simpa [hmt] using hm
    exact hv.2 ▸ Ends.bind (Catalog.resolve_ends hmt) (Ends.bind_error (Catalog.resolve_missing hv.1))

end Signature

namespace Pass

open JniSignatures.Action (Ends)

variable {types : TypeMap} {fs : List Function} {machine version : String} {i : Nat} {f : Function}

/-! ## All of them -/

/-- The functions with those at some positions changed as all that run on loading are. -/
def loadedAt (machine version : String) (positions : List Nat) (fs : List Function) : List Function :=
  fs.mapIdx fun i f => if i ∈ positions then f.atLoad machine version else f

theorem loadedAt_nil (fs : List Function) : loadedAt machine version [] fs = fs := by
  refine List.ext_getElem? fun i => ?_
  simp [loadedAt]

theorem loadedAt_cons {rest : List Nat} (h : fs[i]? = some f) (hi : i ∉ rest) :
    loadedAt machine version rest (fs.set i (f.atLoad machine version)) =
      loadedAt machine version (i :: rest) fs := by
  refine List.ext_getElem? fun j => ?_
  simp only [loadedAt, List.getElem?_mapIdx, List.getElem?_set, List.mem_cons]
  by_cases hj : i = j
  · subst hj
    obtain ⟨hl, rfl⟩ := List.getElem?_eq_some_iff.1 h
    simp [hi, hl]
  · simp [hj, Ne.symm hj]

theorem modifyOnLoad_ends {positions : List Nat} (hm : types Signature.machineType = some machine)
    (hv : types Signature.versionType = some version) (hd : positions.Nodup)
    (h : ∀ i ∈ positions, ∃ f, fs[i]? = some f ∧ f.isOnLoad ∧ f.onLoadRefusal? = none) :
    Ends types fs (modifyOnLoad Catalog.resolve positions)
      (.ok (List.replicate positions.length Symbol.onLoad)) (loadedAt machine version positions fs) := by
  induction positions generalizing fs with
  | nil =>
    rw [loadedAt_nil]
    exact Ends.pure _
  | cons i rest ih =>
    obtain ⟨f, hf, ho, hr⟩ := h i List.mem_cons_self
    obtain ⟨hi, hd⟩ := List.nodup_cons.1 hd
    have hset := List.getElem?_set_self (a := f.atLoad machine version) (List.getElem?_eq_some_iff.1 hf).1
    have hname : f.name = Symbol.onLoad := by simpa [Function.isOnLoad] using ho
    rw [← loadedAt_cons hf hi]
    refine Ends.bind (Signature.assignOnLoad_ends hm hv hf hr) (Ends.bind (Ends.functionName hset) ?_)
    refine Ends.bind (ih hd fun j hj => ?_) ?_
    · obtain ⟨g, hg, hgo⟩ := h j (List.mem_cons_of_mem _ hj)
      have hne : i ≠ j := fun he => hi (he ▸ hj)
      exact ⟨g, by rw [List.getElem?_set_ne hne, hg], hgo⟩
    · rw [show (f.atLoad machine version).name = Symbol.onLoad from hname]
      exact Ends.pure _

/-- The changes go up to the first function in which a refusal is met. -/
theorem modifyOnLoad_refused {before after : List Nat} {r : Refusal}
    (hm : types Signature.machineType = some machine) (hv : types Signature.versionType = some version)
    (hd : (before ++ i :: after).Nodup)
    (h : ∀ j ∈ before, ∃ g, fs[j]? = some g ∧ g.isOnLoad ∧ g.onLoadRefusal? = none)
    (hf : fs[i]? = some f) (hr : f.onLoadRefusal? = some r) :
    Ends types fs (modifyOnLoad Catalog.resolve (before ++ i :: after)) (.error (.refused r.message))
      ((loadedAt machine version before fs).set i (f.untilRefusal machine r.setter)) := by
  -- The positions are distinct, so what has been done at the first one stays as it is.
  induction before generalizing fs with
  | nil =>
    rw [loadedAt_nil]
    exact Ends.bind_error (Signature.assignOnLoad_refused hm hv hf hr)
  | cons j rest ih =>
    obtain ⟨g, hg, -, hgr⟩ := h j List.mem_cons_self
    obtain ⟨hj, hd⟩ := List.nodup_cons.1 hd
    have hj' : j ∉ rest := fun hm => hj (List.mem_append_left _ hm)
    have hji : j ≠ i := fun he => hj (by simp [he])
    have hset := List.getElem?_set_self (a := g.atLoad machine version) (List.getElem?_eq_some_iff.1 hg).1
    rw [← loadedAt_cons hg hj']
    refine Ends.bind (Signature.assignOnLoad_ends hm hv hg hgr) (Ends.bind (Ends.functionName hset) ?_)
    refine Ends.bind_error (ih hd (fun k hk => ?_) ?_)
    · obtain ⟨k', hk', hko⟩ := h k (List.mem_cons_of_mem _ hk)
      have hne : j ≠ k := fun he => hj' (he ▸ hk)
      exact ⟨k', by rw [List.getElem?_set_ne hne, hk'], hko⟩
    · rw [List.getElem?_set_ne hji, hf]

theorem modifyOnLoad_missing {rest : List Nat} {typeName : Text} (hf : fs[i]? = some f)
    (hm : [Signature.machineType, Signature.versionType].find? (fun t => (types t).isNone) = some typeName) :
    Ends types fs (modifyOnLoad Catalog.resolve (i :: rest))
      (.error (.typeMissing typeName (Catalog.path typeName))) fs :=
  Ends.bind_error (Signature.assignOnLoad_missing hf hm)

end Pass

end JniSignatures
