import Mathlib
import JniSignatures.Pass.Sweep
import JniSignatures.Proofs.Pass.Fitting
/-!
# Matching methods

What becomes of a method is settled by the index, by the symbols that are shared and by the catalog
alone: its `Verdict`. The outcome that is reported and the function that gets a new signature follow
from it, and so does the fault that ends the pass, together with the policy and with what the host
refuses. Methods are gone through up to the first fault (`matchMethods_ends`, `matchMethods_stops`).
-/

namespace JniSignatures

/-- The function with another signature, if there is one. -/
def Function.resigned (f : Function) : Option Signature → Function
  | some signature => { f with params := signature.params, returnType := signature.returnType }
  | none => f

namespace Pass

open JniSignatures.Action (Ends)

/-- What becomes of a method unless the host refuses it. -/
inductive Verdict where
  | shared
  | unmatched
  | lacking (typeName : Text)
  | assigned (function : Nat) (signature : Signature)
  deriving DecidableEq

/-- The verdict on a method by the types of a catalog, an index, and the symbols that are shared. -/
def verdict (types : TypeMap) (index : List (String × Nat)) (shared : List String) (m : Method) : Verdict :=
  if shared.contains (Symbol.ofName m.qualifiedName) then .shared
  else match index.lookup (Symbol.ofName m.qualifiedName) with
    | none => .unmatched
    | some i => match Signature.missing? types m with
      | some typeName => .lacking typeName
      | none => .assigned i (Signature.described types m)

namespace Verdict

/-- What is reported of a method. -/
def outcome (m : Method) : Verdict → Outcome
  | .shared => unsupportedOutcome m (.overloaded m.qualifiedName)
  | .unmatched => ⟨some m.qualifiedName, some (Symbol.ofName m.qualifiedName), .noMatch, none, none⟩
  | .lacking typeName =>
    ⟨some m.qualifiedName, some (Symbol.ofName m.qualifiedName), .typeError, none,
      some (ActionFault.typeMissing typeName (Catalog.path typeName)).message⟩
  | .assigned _ signature =>
    ⟨some m.qualifiedName, some (Symbol.ofName m.qualifiedName), .applied, some signature.params.length, none⟩

/-- Why the pass ends with a method, if it does. -/
def fault? (policy : Policy) (fs : List Function) : Verdict → Option ActionFault
  | .lacking typeName =>
    if policy = .abort then some (.typeMissing typeName (Catalog.path typeName)) else none
  | .assigned i _ => (fs[i]?.bind (·.refusalOf .signature)).map .refused
  | _ => none

/-- The new signature for a function. -/
def signatureAt? (i : Nat) : Verdict → Option Signature
  | .assigned j signature => if j = i then some signature else none
  | _ => none

/-- The functions after a method. -/
def perform (fs : List Function) (v : Verdict) : List Function :=
  fs.mapIdx fun i f => f.resigned (v.signatureAt? i)

theorem signatureAt?_eq_some_iff {v : Verdict} {i : Nat} {signature : Signature} :
    v.signatureAt? i = some signature ↔ v = .assigned i signature := by
  cases v <;> simp [signatureAt?]

theorem perform_getElem? (fs : List Function) (v : Verdict) (i : Nat) :
    (v.perform fs)[i]? = fs[i]?.map fun f => f.resigned (v.signatureAt? i) :=
  List.getElem?_mapIdx

/-- A verdict that names no function leaves all of them. -/
theorem perform_eq_self {v : Verdict} (h : ∀ i signature, v ≠ .assigned i signature) (fs : List Function) :
    v.perform fs = fs := by
  refine List.ext_getElem? fun i => ?_
  rw [perform_getElem?, Option.eq_none_iff_forall_ne_some.2 fun signature hs =>
    h i signature (signatureAt?_eq_some_iff.1 hs)]
  exact Option.map_id'

theorem perform_assigned {fs : List Function} {i : Nat} {f : Function} (h : fs[i]? = some f)
    (signature : Signature) :
    (Verdict.assigned i signature).perform fs = fs.set i (f.resigned (some signature)) := by
  refine List.ext_getElem? fun j => ?_
  rw [perform_getElem?, List.getElem?_set]
  by_cases hj : i = j
  · subst hj
    rw [if_pos rfl, if_pos (List.getElem?_eq_some_iff.1 h).1, h, signatureAt?, if_pos rfl]
    rfl
  · rw [if_neg hj, signatureAt?, if_neg hj]
    exact Option.map_id'

theorem refusalOf_congr {fs gs : List Function} (h : gs.map (·.refusal) = fs.map (·.refusal)) (i : Nat)
    (setter : Setter) : gs[i]?.bind (·.refusalOf setter) = fs[i]?.bind (·.refusalOf setter) := by
  have hi : gs[i]?.map (·.refusal) = fs[i]?.map (·.refusal) := by
    simpa only [List.getElem?_map] using congrArg (·[i]?) h
  cases hg : gs[i]? <;> cases hf : fs[i]? <;> simp_all [Function.refusalOf]

/-- A fault depends on the functions only by what the host refuses. -/
theorem fault?_congr {fs gs : List Function} (h : gs.map (·.refusal) = fs.map (·.refusal)) (policy : Policy)
    (v : Verdict) : v.fault? policy gs = v.fault? policy fs := by
  cases v with
  | assigned i signature => rw [fault?, fault?, refusalOf_congr h]
  | _ => rfl

/-- A new signature does not change what the host refuses. -/
theorem fault?_perform (policy : Policy) (fs : List Function) (v w : Verdict) :
    w.fault? policy (v.perform fs) = w.fault? policy fs := by
  refine fault?_congr (List.ext_getElem? fun i => ?_) policy w
  rw [List.getElem?_map, List.getElem?_map, perform_getElem?, Option.map_map]
  refine congrArg (Option.map · fs[i]?) (funext fun f => ?_)
  cases v.signatureAt? i <;> rfl

end Verdict

/-! ## One method -/

section Matching

variable {policy : Policy} {types : TypeMap} {index : List (String × Nat)} {shared : List String}
  {fs : List Function} {m : Method}

/-- Positions in the index are positions in the program. -/
def InRange (index : List (String × Nat)) (fs : List Function) : Prop :=
  ∀ symbol i, index.lookup symbol = some i → i < fs.length

theorem applyMatch_ends {symbol : String} {i : Nat} {f : Function} (h : fs[i]? = some f)
    (hm : Signature.missing? types m = none) (hr : f.refusalOf .signature = none) :
    Ends types fs (applyMatch Catalog.resolve policy m symbol i)
      (.ok ⟨some m.qualifiedName, some symbol, .applied,
        some (Signature.described types m).params.length, none⟩)
      (fs.set i (f.resigned (some (Signature.described types m)))) := by
  refine Ends.tryCatch (Ends.bind ?_ (Ends.pure _))
  exact Ends.bind (Signature.ofMethod_ends hm) (Ends.bind (Ends.change h hr) (Ends.pure _))

theorem applyMatch_refused {symbol message : String} {i : Nat} {f : Function} (h : fs[i]? = some f)
    (hm : Signature.missing? types m = none) (hr : f.refusalOf .signature = some message) :
    Ends types fs (applyMatch Catalog.resolve policy m symbol i) (.error (.refused message)) fs := by
  have ha : Ends types fs (Signature.assign Catalog.resolve i m) (.error (.refused message)) fs :=
    Ends.bind (Signature.ofMethod_ends hm) (Ends.bind_error (Ends.change_refused h hr))
  exact Ends.tryCatch_error (Ends.bind_error ha) (Ends.throw _)

theorem applyMatch_skips {symbol : String} {typeName : Text} {i : Nat}
    (hm : Signature.missing? types m = some typeName) :
    Ends types fs (applyMatch Catalog.resolve .skip m symbol i)
      (.ok ⟨some m.qualifiedName, some symbol, .typeError, none,
        some (ActionFault.typeMissing typeName (Catalog.path typeName)).message⟩) fs := by
  refine Ends.tryCatch_error (Ends.bind_error (Ends.bind_error (Signature.ofMethod_missing hm))) ?_
  exact Ends.bind (Ends.print _) (Ends.pure _)

theorem applyMatch_aborts {symbol : String} {typeName : Text} {i : Nat}
    (hm : Signature.missing? types m = some typeName) :
    Ends types fs (applyMatch Catalog.resolve .abort m symbol i)
      (.error (.typeMissing typeName (Catalog.path typeName))) fs := by
  refine Ends.tryCatch_error (Ends.bind_error (Ends.bind_error (Signature.ofMethod_missing hm))) ?_
  exact Ends.throw _

/-- A method without a fault is reported by its verdict, which is carried out. -/
theorem matchMethod_ends (hi : InRange index fs)
    (h : (verdict types index shared m).fault? policy fs = none) :
    Ends types fs
      (matchMethod Catalog.resolve policy index (shared.contains (Symbol.ofName m.qualifiedName)) m)
      (.ok ((verdict types index shared m).outcome m)) ((verdict types index shared m).perform fs) := by
  unfold matchMethod verdict at *
  cases hs : shared.contains (Symbol.ofName m.qualifiedName) with
  | true =>
    rw [if_pos rfl, Verdict.perform_eq_self (by simp)]
    exact Ends.bind (Ends.print _) (Ends.pure _)
  | false =>
    simp only [hs, Bool.false_eq_true, if_false] at h ⊢
    refine Ends.bind (Ends.print _) ?_
    cases hl : index.lookup (Symbol.ofName m.qualifiedName) with
    | none =>
      simp only
      rw [Verdict.perform_eq_self (by simp)]
      exact Ends.pure _
    | some i =>
      simp only [hl] at h ⊢
      -- A missing type is a fault under one policy only, a refusal under both.
      cases hm : Signature.missing? types m with
      | some typeName =>
        simp only [hm, Verdict.fault?] at h ⊢
        rw [Verdict.perform_eq_self (by simp)]
        cases policy with
        | abort => simp at h
        | skip => exact applyMatch_skips hm
      | none =>
        simp only [hm, Verdict.fault?] at h ⊢
        have hf := List.getElem?_eq_getElem (hi _ i hl)
        rw [Verdict.perform_assigned hf]
        refine applyMatch_ends hf hm ?_
        simpa [hf] using h

/-- A method with a fault changes nothing. -/
theorem matchMethod_stops {e : ActionFault} (hi : InRange index fs)
    (h : (verdict types index shared m).fault? policy fs = some e) :
    Ends types fs
      (matchMethod Catalog.resolve policy index (shared.contains (Symbol.ofName m.qualifiedName)) m)
      (.error e) fs := by
  unfold matchMethod verdict at *
  cases hs : shared.contains (Symbol.ofName m.qualifiedName) with
  | true =>
    rw [hs, if_pos rfl] at h
    cases h
  | false =>
    simp only [hs, Bool.false_eq_true, if_false] at h ⊢
    refine Ends.bind (Ends.print _) ?_
    cases hl : index.lookup (Symbol.ofName m.qualifiedName) with
    | none =>
      rw [hl] at h
      cases h
    | some i =>
      simp only [hl] at h ⊢
      cases hm : Signature.missing? types m with
      | some typeName =>
        simp only [hm, Verdict.fault?] at h
        cases policy with
        | abort => exact (by simpa using h : _ = e) ▸ applyMatch_aborts hm
        | skip => simp at h
      | none =>
        simp only [hm, Verdict.fault?] at h
        have hlt := hi _ i hl
        have hf := List.getElem?_eq_getElem hlt
        obtain ⟨message, hr, rfl⟩ : ∃ message, fs[i].refusalOf .signature = some message ∧ .refused message = e := by
          simpa [hf] using h
        exact applyMatch_refused hf hm hr

/-! ## All methods -/

/-- The last new signature that methods give a function. -/
def newSignature? (v : Method → Verdict) (methods : List Method) (i : Nat) : Option Signature :=
  methods.reverse.findSome? fun m => (v m).signatureAt? i

/-- The functions after methods. -/
def performAll (v : Method → Verdict) (methods : List Method) (fs : List Function) : List Function :=
  methods.foldl (fun gs m => (v m).perform gs) fs

theorem resigned_resigned (f : Function) (a b : Option Signature) :
    (f.resigned a).resigned b = f.resigned (b.or a) := by
  cases a <;> cases b <;> rfl

theorem newSignature?_concat (v : Method → Verdict) (methods : List Method) (m : Method) (i : Nat) :
    newSignature? v (methods ++ [m]) i = ((v m).signatureAt? i).or (newSignature? v methods i) := by
  rw [newSignature?, List.reverse_append, List.reverse_singleton, List.singleton_append, List.findSome?_cons]
  cases (v m).signatureAt? i <;> rfl

/-- Of several signatures for one function the last one stays. -/
theorem performAll_eq (v : Method → Verdict) (methods : List Method) (fs : List Function) :
    performAll v methods fs = fs.mapIdx fun i f => f.resigned (newSignature? v methods i) := by
  refine List.ext_getElem? fun i => ?_
  rw [List.getElem?_mapIdx]
  -- By the last method: its signature, if it gives one, hides what the earlier ones gave.
  induction methods using List.reverseRecOn with
  | nil => exact (Option.map_id' (x := fs[i]?)).symm
  | append_singleton rest m ih =>
    rw [performAll, List.foldl_append, List.foldl_cons, List.foldl_nil, Verdict.perform_getElem?]
    rw [show rest.foldl (fun gs m => (v m).perform gs) fs = performAll v rest fs from rfl, ih, Option.map_map]
    refine congrArg (Option.map · fs[i]?) (funext fun f => ?_)
    rw [Function.comp_apply, resigned_resigned, newSignature?_concat]

theorem newSignature?_eq_some {v : Method → Verdict} {methods : List Method} {i : Nat} {signature : Signature}
    (h : newSignature? v methods i = some signature) : ∃ m ∈ methods, v m = .assigned i signature := by
  obtain ⟨m, hm, hs⟩ := List.exists_of_findSome?_eq_some h
  exact ⟨m, List.mem_reverse.1 hm, Verdict.signatureAt?_eq_some_iff.1 hs⟩

theorem newSignature?_eq_none_iff {v : Method → Verdict} {methods : List Method} {i : Nat} :
    newSignature? v methods i = none ↔ ∀ m ∈ methods, ∀ signature, v m ≠ .assigned i signature := by
  rw [newSignature?, List.findSome?_eq_none_iff]
  simp only [List.mem_reverse, Option.eq_none_iff_forall_ne_some, ne_eq, Verdict.signatureAt?_eq_some_iff]

theorem InRange.perform (hi : InRange index fs) (v : Verdict) : InRange index (v.perform fs) := by
  intro symbol i hl
  simpa [Verdict.perform] using hi symbol i hl

theorem matchMethods_ends {methods : List Method} (hi : InRange index fs)
    (h : ∀ m ∈ methods, (verdict types index shared m).fault? policy fs = none) :
    Ends types fs (matchMethods Catalog.resolve policy index shared methods)
      (.ok (methods.map fun m => (verdict types index shared m).outcome m))
      (performAll (verdict types index shared) methods fs) := by
  -- What a method does to the functions changes neither the faults nor the range of those after it.
  induction methods generalizing fs with
  | nil => exact Ends.pure _
  | cons m rest ih =>
    refine Ends.bind (matchMethod_ends hi (h m List.mem_cons_self)) (Ends.bind ?_ (Ends.pure _))
    refine ih (hi.perform _) fun n hn => ?_
    rw [Verdict.fault?_perform]
    exact h n (List.mem_cons_of_mem _ hn)

/-- The methods before the first fault are carried out. -/
theorem matchMethods_stops {before after : List Method} {m : Method} {e : ActionFault}
    (hi : InRange index fs) (h : ∀ b ∈ before, (verdict types index shared b).fault? policy fs = none)
    (he : (verdict types index shared m).fault? policy fs = some e) :
    Ends types fs (matchMethods Catalog.resolve policy index shared (before ++ m :: after)) (.error e)
      (performAll (verdict types index shared) before fs) := by
  induction before generalizing fs with
  | nil => exact Ends.bind_error (matchMethod_stops hi he)
  | cons b rest ih =>
    refine Ends.bind (matchMethod_ends hi (h b List.mem_cons_self)) (Ends.bind_error ?_)
    refine ih (hi.perform _) (fun n hn => ?_) ?_
    · rw [Verdict.fault?_perform]
      exact h n (List.mem_cons_of_mem _ hn)
    · rw [Verdict.fault?_perform, he]

end Matching

end Pass

end JniSignatures
