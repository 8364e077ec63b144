import Mathlib
import JniSignatures.Proofs.Pass.Unhindered
/-!
# The names of parameters

The host refuses a function whose parameters do not have distinct names. A signature for a method has such
names, however many arguments there are (`Fits.nodup_names`). A function that runs on loading gets one new
name in front of those that it keeps, so its names are distinct unless it keeps the new one
(`nodup_atLoad_iff`). A pass does nothing else to names (`names_of_return`).
-/

namespace JniSignatures

/-- The names of a function's parameters. -/
def Function.parameterNames (f : Function) : List String :=
  f.params.map (·.name)

namespace Signature

/-! ## Signatures for methods -/

theorem argumentName_injective {i j : Nat} (h : argumentName i = argumentName j) : i = j :=
  Nat.repr_injective ((String.append_right_inj "a").1 h)

theorem head?_argumentName (position : Nat) : (argumentName position).toList.head? = some 'a' := by
  rw [argumentName, String.toList_append]
  rfl

/-- No argument is called like the parameters in front of the arguments. -/
theorem notMem_map_argumentName {name : String} (h : name.toList.head? ≠ some 'a') (count : Nat) :
    name ∉ (List.range count).map argumentName := by
  intro hmem
  obtain ⟨position, -, rfl⟩ := List.mem_map.1 hmem
  exact h (head?_argumentName position)

theorem Fits.nodup_names {types : TypeMap} {m : Method} {signature : Signature} (h : Fits types m signature) :
    (signature.params.map (·.name)).Nodup := by
  have harguments : ((List.range m.argumentTypes.length).map argumentName).Nodup :=
    List.nodup_range.map fun _ _ => argumentName_injective
  have hreceiver : receiverName ∉ (List.range m.argumentTypes.length).map argumentName :=
    notMem_map_argumentName (by decide) _
  have hinterface : interfaceName ∉ (List.range m.argumentTypes.length).map argumentName :=
    notMem_map_argumentName (by decide) _
  rw [h.names, List.nodup_cons, List.nodup_cons, List.mem_cons, not_or]
  exact ⟨⟨by decide, hinterface⟩, hreceiver, harguments⟩

end Signature

namespace Pass

/-! ## Functions after a pass -/

section Names

variable {types : TypeMap} {methods done : List Method} {fs : List Function} {f g : Function} {i : Nat}

theorem parameterNames_atLoad (machine version : String) (f : Function) :
    (f.atLoad machine version).parameterNames = Signature.machineName :: f.parameterNames.tail := by
  rw [Function.parameterNames, Function.parameterNames, Function.atLoad, List.map_cons, List.map_tail]

theorem nodup_atLoad_iff {machine version : String} (h : f.parameterNames.Nodup) :
    (f.atLoad machine version).parameterNames.Nodup ↔ Signature.machineName ∉ f.parameterNames.tail := by
  rw [parameterNames_atLoad, List.nodup_cons]
  exact and_iff_left h.tail

theorem nodup_resigned (h : f.parameterNames.Nodup) (done : List Method) (i : Nat) :
    (f.resigned (newSignature? (judge types methods fs) done i)).parameterNames.Nodup := by
  cases hs : newSignature? (judge types methods fs) done i with
  | none => exact h
  | some signature =>
    obtain ⟨m, -, hj⟩ := newSignature?_eq_some hs
    have hg := grounds types methods fs m
    rw [hj] at hg
    cases hg with
    | assigned _ _ _ missing => exact (Signature.fits_described missing).nodup_names

theorem nodup_reached_iff (hf : fs[i]? = some f) (hg : (reached types methods fs done)[i]? = some g)
    (h : f.parameterNames.Nodup) :
    g.parameterNames.Nodup ↔ ¬ (f.isOnLoad ∧ Signature.machineName ∈ f.parameterNames.tail) := by
  rw [reached_getElem? hf] at hg
  obtain rfl := Option.some.inj hg
  by_cases ho : f.isOnLoad
  · rw [if_pos ho, loaded, nodup_atLoad_iff h, and_iff_right ho]
  · rw [if_neg ho]
    exact iff_of_true (nodup_resigned h done i) fun hmem => ho hmem.1

end Names

/-- After a pass that returns, a function whose parameters had distinct names has such parameters again, unless
it runs on loading and one of the parameters that it keeps is called like the new one. -/
theorem names_of_return {policy : Policy} {methods : List Method} {s t : Session} {r : Report}
    (h : exec (run policy methods) s = (.ok r, t)) :
    t.functions.length = s.functions.length ∧
    ∀ (i : Nat) (f g : Function), s.functions[i]? = some f → t.functions[i]? = some g → f.parameterNames.Nodup →
      (g.parameterNames.Nodup ↔ ¬ (f.isOnLoad ∧ Signature.machineName ∈ f.parameterNames.tail)) := by
  obtain ⟨-, hreached⟩ := reached_of_return h
  rw [hreached]
  refine ⟨List.length_mapIdx, fun i f g hf hg hd => ?_⟩
  exact nodup_reached_iff hf hg hd

/-- A library with a native function and one that runs on loading, whose second parameter has the given name. -/
def loadSecond (second : String) : Session :=
  { functions :=
      [⟨"JNI_OnLoad", none, [⟨"p", "undefined"⟩, ⟨second, "undefined"⟩], "undefined", none⟩,
        ⟨"Java_A_f", none, [⟨"p", "undefined"⟩], "undefined", none⟩]
    types := [("JNIEnv *", "E"), ("JavaVM *", "V"), ("jint", "I"), ("jobject", "O")]
    known := [], calls := [], printed := [] }

/-- The method of the native function in `loadSecond`. -/
def twoParameterMethod : Method :=
  ⟨"A.f", ["jint", "jint"], "jint", false⟩

/-- The second parameter has another name than the first one gets. -/
theorem loadSecond_distinct :
    ∃ r t, exec (run .abort [twoParameterMethod]) (loadSecond "reserved") = (.ok r, t) ∧
      t.functions.map Function.parameterNames = [["vm", "reserved"], ["env", "thiz", "a0", "a1"]] ∧
      ∀ (f g : Function), (loadSecond "reserved").functions[0]? = some f → t.functions[0]? = some g →
        g.parameterNames.Nodup := by
  refine ⟨_, _, rfl, rfl, fun f g hf hg => ?_⟩
  have hrun : exec (run .abort [twoParameterMethod]) (loadSecond "reserved") = (.ok _, _) := rfl
  have hnames := names_of_return hrun
  cases hf
  exact (hnames.2 0 _ g rfl hg (by decide)).2 (by decide)

/-- The second parameter has the name that the first one gets. -/
theorem loadSecond_repeats : (∀ f ∈ (loadSecond "vm").functions, f.parameterNames.Nodup) ∧
    ∃ r t, exec (run .abort [twoParameterMethod]) (loadSecond "vm") = (.ok r, t) ∧
      t.functions.map Function.parameterNames = [["vm", "vm"], ["env", "thiz", "a0", "a1"]] :=
  ⟨by decide, _, _, rfl, rfl⟩

end Pass

end JniSignatures
