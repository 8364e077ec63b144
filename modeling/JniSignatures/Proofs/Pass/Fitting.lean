import Mathlib
import JniSignatures.Pass.Signature
import JniSignatures.Proofs.Pass.Ending
/-!
# Signatures that fit a method

`Signature.Fits` says what the signature of a method is by the types of a catalog: the names of its
parameters, the descriptors of the types in their order, and the return type. There is such a
signature if the catalog has all types of the method, and then only one (`fits_described`,
`Fits.unique`). Finding the types ends with it (`ofMethod_ends`), or with the first type that is
missing (`ofMethod_missing`); no function is touched.
-/

namespace JniSignatures

namespace Signature

/-- The types of a method, in the order in which they are looked up. -/
def typeNames (m : Method) : List Text :=
  interfaceType :: receiverType m :: (m.argumentTypes ++ [m.returnType])

/-- The first type of a method that a catalog lacks. -/
def missing? (types : TypeMap) (m : Method) : Option Text :=
  (typeNames m).find? fun typeName => (types typeName).isNone

/-- A signature is that of a method by the types of a catalog. -/
structure Fits (types : TypeMap) (m : Method) (signature : Signature) : Prop where
  names : signature.params.map (·.name) =
    interfaceName :: receiverName :: (List.range m.argumentTypes.length).map argumentName
  descriptors : signature.params.map (fun p => some p.type) =
    (interfaceType :: receiverType m :: m.argumentTypes).map types
  returnType : types m.returnType = some signature.returnType

/-- The parameters for arguments from a position on, by the types of a catalog that has them. -/
def describedArguments (types : TypeMap) (position : Nat) : List Text → List Parameter
  | [] => []
  | typeName :: rest =>
    ⟨argumentName position, (types typeName).getD ""⟩ :: describedArguments types (position + 1) rest

/-- The signature of a method by the types of a catalog that has them. -/
def described (types : TypeMap) (m : Method) : Signature :=
  { params :=
      ⟨interfaceName, (types interfaceType).getD ""⟩ ::
        ⟨receiverName, (types (receiverType m)).getD ""⟩ :: describedArguments types 0 m.argumentTypes
    returnType := (types m.returnType).getD "" }

/-! ## The signature of a method -/

theorem missing?_eq_none_iff {types : TypeMap} {m : Method} :
    missing? types m = none ↔ ∀ typeName ∈ typeNames m, ∃ d, types typeName = some d := by
  simp [missing?, List.find?_eq_none, ← ne_eq, Option.ne_none_iff_exists']

theorem describedArguments_names (types : TypeMap) (position : Nat) (names : List Text) :
    (describedArguments types position names).map (·.name) =
      (List.range' position names.length).map argumentName := by
  induction names generalizing position with
  | nil => rfl
  | cons typeName rest ih => simp [describedArguments, ih, List.range'_succ]

theorem describedArguments_types {types : TypeMap} {names : List Text}
    (h : ∀ typeName ∈ names, ∃ d, types typeName = some d) (position : Nat) :
    (describedArguments types position names).map (fun p => some p.type) = names.map types := by
  induction names generalizing position with
  | nil => rfl
  | cons typeName rest ih =>
    obtain ⟨d, hd⟩ := h typeName List.mem_cons_self
    simp [describedArguments, hd, ih fun t ht => h t (List.mem_cons_of_mem _ ht)]

theorem fits_described {types : TypeMap} {m : Method} (h : missing? types m = none) :
    Fits types m (described types m) := by
  have hall := missing?_eq_none_iff.1 h
  obtain ⟨interface, hi⟩ := hall interfaceType (by simp [typeNames])
  obtain ⟨receiver, hr⟩ := hall (receiverType m) (by simp [typeNames])
  obtain ⟨result, ht⟩ := hall m.returnType (by simp [typeNames])
  have hargs : ∀ t ∈ m.argumentTypes, ∃ d, types t = some d :=
    fun t htm => hall t (by simp [typeNames, htm])
  refine ⟨?_, ?_, ?_⟩
  · simp [described, describedArguments_names, List.range_eq_range']
  · simp [described, hi, hr, describedArguments_types hargs]
  · simp [described, ht]

theorem Fits.missing_eq_none {types : TypeMap} {m : Method} {signature : Signature}
    (h : Fits types m signature) : missing? types m = none := by
  rw [missing?_eq_none_iff]
  have hmem : ∀ t ∈ interfaceType :: receiverType m :: m.argumentTypes, ∃ d, types t = some d := by
    intro t ht
    have : types t ∈ signature.params.map (fun p => some p.type) := by
      rw [h.descriptors]
      exact List.mem_map_of_mem ht
    obtain ⟨p, -, hp⟩ := List.mem_map.1 this
    exact ⟨p.type, hp.symm⟩
  intro t ht
  rw [typeNames, ← List.cons_append, ← List.cons_append, List.mem_append, List.mem_singleton] at ht
  rcases ht with ht | rfl
  · exact hmem t ht
  · exact ⟨_, h.returnType⟩

/-- Parameters are told by their names and their types. -/
theorem params_ext {ps qs : List Parameter} (hn : ps.map (·.name) = qs.map (·.name))
    (ht : ps.map (fun p => some p.type) = qs.map (fun p => some p.type)) : ps = qs := by
  induction ps generalizing qs with
  | nil =>
    cases qs with
    | nil => rfl
    | cons q qs => cases hn
  | cons p ps ih =>
    cases qs with
    | nil => cases hn
    | cons q qs =>
      simp only [List.map_cons, List.cons.injEq, Option.some.injEq] at hn ht
      obtain ⟨p, t⟩ := p
      obtain ⟨q, u⟩ := q
      simp only at hn ht
      rw [hn.1, ht.1, ih hn.2 ht.2]

/-- A method has one signature. -/
theorem Fits.unique {types : TypeMap} {m : Method} {a b : Signature} (ha : Fits types m a)
    (hb : Fits types m b) : a = b := by
  obtain ⟨ps, t⟩ := a
  obtain ⟨qs, u⟩ := b
  have hp : ps = qs := params_ext (ha.names.trans hb.names.symm) (ha.descriptors.trans hb.descriptors.symm)
  have ht : t = u := Option.some.inj (ha.returnType.symm.trans hb.returnType)
  rw [hp, ht]

theorem Fits.eq_described {types : TypeMap} {m : Method} {signature : Signature}
    (h : Fits types m signature) : signature = described types m :=
  h.unique (fits_described h.missing_eq_none)

/-- A function takes two parameters more than its method has arguments. -/
theorem Fits.length {types : TypeMap} {m : Method} {signature : Signature} (h : Fits types m signature) :
    signature.params.length = m.argumentTypes.length + 2 := by
  simpa using congrArg List.length h.names

/-! ## Finding the types -/

section Finding

open JniSignatures.Action (Ends)

variable {types : TypeMap} {fs : List Function}

theorem arguments_ends {names : List Text} (h : ∀ t ∈ names, ∃ d, types t = some d) (position : Nat) :
    Ends types fs (arguments Catalog.resolve position names)
      (.ok (describedArguments types position names)) fs := by
  induction names generalizing position with
  | nil => exact Ends.pure _
  | cons typeName rest ih =>
    obtain ⟨d, hd⟩ := h typeName List.mem_cons_self
    refine Ends.bind (Catalog.resolve_ends hd) ?_
    refine Ends.bind (ih (fun t ht => h t (List.mem_cons_of_mem _ ht)) (position + 1)) ?_
    rw [describedArguments, hd]
    exact Ends.pure _

theorem arguments_missing {names : List Text} {typeName : Text}
    (h : names.find? (fun t => (types t).isNone) = some typeName) (position : Nat) :
    Ends types fs (arguments Catalog.resolve position names)
      (.error (.typeMissing typeName (Catalog.path typeName))) fs := by
  induction names generalizing position with
  | nil => cases h
  | cons first rest ih =>
    cases hd : types first with
    | none =>
      have : first = typeName := by simpa [hd] using h
      exact this ▸ Ends.bind_error (Catalog.resolve_missing hd)
    | some d =>
      have hrest : rest.find? (fun t => (types t).isNone) = some typeName := by simpa [hd] using h
      exact Ends.bind (Catalog.resolve_ends hd) (Ends.bind_error (ih hrest (position + 1)))

theorem ofMethod_ends {m : Method} (h : missing? types m = none) :
    Ends types fs (ofMethod Catalog.resolve m) (.ok (described types m)) fs := by
  have hall := missing?_eq_none_iff.1 h
  obtain ⟨interface, hi⟩ := hall interfaceType (by simp [typeNames])
  obtain ⟨receiver, hr⟩ := hall (receiverType m) (by simp [typeNames])
  obtain ⟨result, ht⟩ := hall m.returnType (by simp [typeNames])
  have hargs : ∀ t ∈ m.argumentTypes, ∃ d, types t = some d :=
    fun t htm => hall t (by simp [typeNames, htm])
  rw [described, hi, hr, ht]
  refine Ends.bind ?_ (Ends.bind (Catalog.resolve_ends ht) (Ends.pure _))
  refine Ends.bind (Catalog.resolve_ends hi) (Ends.bind (Catalog.resolve_ends hr) ?_)
  exact Ends.bind (arguments_ends hargs 0) (Ends.pure _)

theorem ofMethod_missing {m : Method} {typeName : Text} (h : missing? types m = some typeName) :
    Ends types fs (ofMethod Catalog.resolve m)
      (.error (.typeMissing typeName (Catalog.path typeName))) fs := by
  cases hi : types interfaceType with
  | none =>
    have : interfaceType = typeName := by simpa [missing?, typeNames, hi] using h
    exact this ▸ Ends.bind_error (Ends.bind_error (Catalog.resolve_missing hi))
  | some interface =>
    cases hr : types (receiverType m) with
    | none =>
      have : receiverType m = typeName := by simpa [missing?, typeNames, hi, hr] using h
      exact this ▸ Ends.bind_error
        (Ends.bind (Catalog.resolve_ends hi) (Ends.bind_error (Catalog.resolve_missing hr)))
    | some receiver =>
      cases ha : m.argumentTypes.find? (fun t => (types t).isNone) with
      | some t =>
        have : t = typeName := by simpa [missing?, typeNames, hi, hr, List.find?_append, ha] using h
        exact this ▸ Ends.bind_error (Ends.bind (Catalog.resolve_ends hi)
          (Ends.bind (Catalog.resolve_ends hr) (Ends.bind_error (arguments_missing ha 0))))
      | none =>
        have hargs : ∀ t ∈ m.argumentTypes, ∃ d, types t = some d := by
          simpa [List.find?_eq_none, ← ne_eq, Option.ne_none_iff_exists'] using ha
        have hret : types m.returnType = none ∧ m.returnType = typeName := by
          simpa [missing?, typeNames, hi, hr, List.find?_append, ha] using h
        refine Ends.bind (Ends.bind (Catalog.resolve_ends hi) (Ends.bind (Catalog.resolve_ends hr)
          (Ends.bind (arguments_ends hargs 0) (Ends.pure _)))) ?_
        exact hret.2 ▸ Ends.bind_error (Catalog.resolve_missing hret.1)

end Finding

end Signature

end JniSignatures
