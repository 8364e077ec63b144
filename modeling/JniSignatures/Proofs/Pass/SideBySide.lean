import Mathlib
import JniSignatures.Proofs.Pass.Rerun
/-!
# Two passes side by side

Two passes over the same methods, on sessions that are told apart by something that a pass does not read,
go step by step together; or the first one stops at a point that the second one passes. `Follows` is this
judgement on two actions, with one rule for each way to build an action. A comparison of passes says which
sessions belong together and what one step does to them (`Comparison`), and gets the whole pass from it
(`runWith_follows`).
-/

namespace JniSignatures

/-- How two runs compare that began side by side. They end alike in sessions that belong together, or the
first one has stopped where the second one went on: `Stop` is about the fault and the sessions at that point. -/
inductive Abreast {α : Type} (R M : Session → Session → Prop) (Stop : ActionFault → Session → Session → Prop) :
    Except ActionFault α × Session → Except ActionFault α × Session → Prop
  | together {r : Except ActionFault α} {s t : Session} (related : R s t) : Abreast R M Stop (r, s) (r, t)
  | stopped {e : ActionFault} {r : Except ActionFault α} {s t u : Session} (stop : Stop e s u) (goesOn : M u t) :
      Abreast R M Stop (.error e, s) (r, t)

/-- An action follows another one from all sessions that belong together. `M` is what the second one does
to its session in any case. -/
structure Follows {α : Type} (R M : Session → Session → Prop) (Stop : ActionFault → Session → Session → Prop)
    (action action' : Action α) : Prop where
  moves : Moves M action'
  abreast : ∀ {s t}, R s t → Abreast R M Stop (exec action s) (exec action' t)

section Rules

variable {α β : Type} {R M : Session → Session → Prop} {Stop : ActionFault → Session → Session → Prop}
  {action action' : Action α}

/-- Two runs that never stop apart end alike. -/
theorem Follows.exec_eq (h : Follows R M Stop action action') (hstop : ∀ e s u, ¬ Stop e s u) {s t : Session}
    (hst : R s t) : (exec action s).1 = (exec action' t).1 ∧ R (exec action s).2 (exec action' t).2 := by
  have ha := h.abreast hst
  cases hs : exec action s with
  | mk r s' =>
    cases ht : exec action' t with
    | mk r' t' =>
      rw [hs, ht] at ha
      cases ha with
      | together related => exact ⟨rfl, related⟩
      | stopped stop => exact absurd stop (hstop _ _ _)

theorem Follows.modify {edit edit' : Session → Session} (moves : ∀ t, M t (edit' t))
    (h : ∀ {s t}, R s t → R (edit s) (edit' t)) :
    Follows R M Stop (modify edit : Action Unit) (modify edit') :=
  ⟨Moves.modify moves, fun hst => .together (h hst)⟩

/-- What follows a look at the session may depend on it. -/
theorem Follows.get_bind {next next' : Session → Action β} (moves : ∀ t, Moves M (next' t))
    (h : ∀ {s t}, R s t → Abreast R M Stop (exec (next s) s) (exec (next' t) t)) :
    Follows R M Stop (get >>= next) (get >>= next') := by
  refine ⟨Moves.get_bind fun t => moves t t, fun {s t} hst => ?_⟩
  rw [exec_bind_ok (show exec get s = (.ok s, s) from rfl), exec_bind_ok (show exec get t = (.ok t, t) from rfl)]
  exact h hst

variable [IsPreorder Session M]

theorem Follows.pure (x : α) : Follows R M Stop (pure x) (pure x) :=
  ⟨Moves.pure x, fun hst => .together hst⟩

theorem Follows.throw (e : ActionFault) : Follows R M Stop (throw e : Action α) (throw e) :=
  ⟨Moves.throw e, fun hst => .together hst⟩

theorem Follows.bind {next next' : α → Action β} (h : Follows R M Stop action action')
    (hn : ∀ x, Follows R M Stop (next x) (next' x)) :
    Follows R M Stop (action >>= next) (action' >>= next') := by
  refine ⟨h.moves.bind fun x => (hn x).moves, fun {s t} hst => ?_⟩
  have ha := h.abreast hst
  cases hs : exec action s with
  | mk r s' =>
    cases ht : exec action' t with
    | mk r' t' =>
      rw [hs, ht] at ha
      cases ha with
      | together related =>
        cases r with
        | ok x =>
          rw [exec_bind_ok hs, exec_bind_ok ht]
          exact (hn x).abreast related
        | error e =>
          rw [exec_bind_error hs, exec_bind_error ht]
          exact .together related
      | stopped stop goesOn =>
        -- Whatever the second run still does comes after the point where the first one has stopped.
        rw [exec_bind_error hs]
        cases r' with
        | ok x =>
          rw [exec_bind_ok ht]
          exact .stopped stop (trans_of M goesOn ((hn x).moves t'))
        | error e =>
          rw [exec_bind_error ht]
          exact .stopped stop goesOn

/-- A handler that lets the fault of a run pass that has stopped. -/
theorem Follows.tryCatch {handler handler' : ActionFault → Action α} (h : Follows R M Stop action action')
    (hn : ∀ e, Follows R M Stop (handler e) (handler' e))
    (hstop : ∀ e s u, Stop e s u → exec (handler e) s = (.error e, s)) :
    Follows R M Stop (tryCatch action handler) (tryCatch action' handler') := by
  refine ⟨h.moves.tryCatch fun e => (hn e).moves, fun {s t} hst => ?_⟩
  have ha := h.abreast hst
  cases hs : exec action s with
  | mk r s' =>
    cases ht : exec action' t with
    | mk r' t' =>
      rw [hs, ht] at ha
      cases ha with
      | together related =>
        cases r with
        | ok x =>
          rw [exec_tryCatch_ok hs, exec_tryCatch_ok ht]
          exact .together related
        | error e =>
          rw [exec_tryCatch_error hs, exec_tryCatch_error ht]
          exact (hn e).abreast related
      | stopped stop goesOn =>
        rw [exec_tryCatch_error hs, hstop _ _ _ stop]
        cases r' with
        | ok x =>
          rw [exec_tryCatch_ok ht]
          exact .stopped stop goesOn
        | error e =>
          rw [exec_tryCatch_error ht]
          exact .stopped stop (trans_of M goesOn ((hn e).moves t'))

end Rules

/-! ## The steps of a pass -/

/-- The change to a function that a call asks for: of which function, and of what. -/
def Call.change? : Call → Option (Nat × Setter)
  | .replaceSignature function _ _ => some (function, .signature)
  | .setParameterName function _ _ => some (function, .parameterName)
  | .setParameterType function _ _ => some (function, .parameterType)
  | .setReturnType function _ => some (function, .returnType)
  | _ => none

/-- What is to be shown of sessions that belong together, for passes on them to be compared. They look alike
to a pass, which does not read what the host refuses; and each step of a pass is followed by the same step
with the other way to find types. Only a refusal may stop the first pass. -/
structure Comparison (R M : Session → Session → Prop) (Stop : ActionFault → Session → Session → Prop)
    (resolve resolve' : Resolver) : Prop where
  looks : ∀ {s t}, R s t → t.functions.map Function.unrefused = s.functions.map Function.unrefused
  lines : ∀ lines, Follows R M Stop (Action.printAll lines) (Action.printAll lines)
  listing : Follows R M Stop (Action.record .listFunctions) (Action.record .listFunctions)
  resolve : ∀ typeName, Follows R M Stop (resolve typeName) (resolve' typeName)
  change : ∀ {call i setter edit}, call.change? = some (i, setter) →
    (∀ f, Function.unrefused (edit f) = edit f.unrefused) → (∀ f, (edit f).refusal = f.refusal) →
    Follows R M Stop (Action.change call setter i edit) (Action.change call setter i edit)
  refused : ∀ {e s u}, Stop e s u → ∃ message, e = .refused message

section Steps

variable {R M : Session → Session → Prop} {Stop : ActionFault → Session → Session → Prop}
  {resolve resolve' : Resolver} (compare : Comparison R M Stop resolve resolve')

include compare

namespace Comparison

theorem look {s t : Session} (h : R s t) (i : Nat) :
    t.functions[i]?.map Function.unrefused = s.functions[i]?.map Function.unrefused := by
  rw [← List.getElem?_map, ← List.getElem?_map, compare.looks h]

theorem inventory_eq {s t : Session} (h : R s t) :
    Inventory.ofFunctions t.functions = Inventory.ofFunctions s.functions := by
  refine Inventory.ofFunctions_congr ?_
  rw [← Pass.label_unrefused t.functions, compare.looks h, Pass.label_unrefused]

theorem print (line : Text) : Follows R M Stop (Action.print line) (Action.print line) :=
  compare.lines [line]

theorem replaceSignature (i : Nat) (params : List Parameter) (returnType : String) :
    Follows R M Stop (Action.replaceSignature i params returnType) (Action.replaceSignature i params returnType) :=
  compare.change rfl (fun _ => rfl) fun _ => rfl

theorem setReturnType (i : Nat) (returnType : String) :
    Follows R M Stop (Action.setReturnType i returnType) (Action.setReturnType i returnType) :=
  compare.change rfl (fun _ => rfl) fun _ => rfl

variable [IsPreorder Session M]

theorem functionName (i : Nat) : Follows R M Stop (Action.functionName i) (Action.functionName i) := by
  refine Follows.get_bind (fun t => Moves.pure _) fun {s t} hst => ?_
  have hname : t.functions[i]?.map (·.name) = s.functions[i]?.map (·.name) := by
    have hlook := congrArg (Option.map (·.name)) (compare.look hst i)
    rwa [Option.map_map, Option.map_map] at hlook
  rw [hname]
  exact .together hst

theorem setFirstParameter (i : Nat) (param : Parameter) :
    Follows R M Stop (Action.setFirstParameter i param) (Action.setFirstParameter i param) :=
  Follows.bind (compare.change rfl (fun _ => rfl) fun _ => rfl) fun _ =>
    compare.change rfl (fun _ => rfl) fun _ => rfl

theorem take : Follows R M Stop Inventory.take Inventory.take := by
  refine Follows.bind compare.listing fun _ => Follows.get_bind (fun t => Moves.pure _) fun hst => ?_
  rw [compare.inventory_eq hst]
  exact .together hst

end Comparison

/-! ## Along a pass -/

variable [IsPreorder Session M]

namespace Signature

theorem arguments_follows (position : Nat) (names : List Text) :
    Follows R M Stop (arguments resolve position names) (arguments resolve' position names) := by
  induction names generalizing position with
  | nil => exact Follows.pure _
  | cons typeName rest ih =>
    exact Follows.bind (compare.resolve typeName) fun _ => Follows.bind (ih (position + 1)) fun _ => Follows.pure _

theorem parameters_follows (m : Method) : Follows R M Stop (parameters resolve m) (parameters resolve' m) :=
  Follows.bind (compare.resolve _) fun _ => Follows.bind (compare.resolve _) fun _ =>
    Follows.bind (arguments_follows compare 0 _) fun _ => Follows.pure _

theorem assign_follows (i : Nat) (m : Method) : Follows R M Stop (assign resolve i m) (assign resolve' i m) := by
  refine Follows.bind ?_ fun _ => Follows.bind (compare.replaceSignature i _ _) fun _ => Follows.pure _
  exact Follows.bind (parameters_follows compare m) fun _ => Follows.bind (compare.resolve _) fun _ => Follows.pure _

theorem assignOnLoad_follows (i : Nat) : Follows R M Stop (assignOnLoad resolve i) (assignOnLoad resolve' i) := by
  refine Follows.bind (compare.functionName i) fun _ => Follows.bind (compare.print _) fun _ => ?_
  refine Follows.bind (compare.resolve _) fun machine => Follows.bind (compare.resolve _) fun version => ?_
  have parts := Follows.bind (compare.setFirstParameter i ⟨machineName, machine⟩) fun _ => compare.setReturnType i version
  have whole := compare.replaceSignature i [⟨machineName, machine⟩] version
  refine Follows.get_bind (fun t => ?_) fun {s t} hst => ?_
  · split
    · exact parts.moves
    · exact whole.moves
  · -- Both functions have parameters, or neither has.
    have hlook := compare.look hst i
    rcases hs : s.functions[i]? with _ | ⟨name, comment, params, returnType, refusal⟩ <;>
      rcases ht : t.functions[i]? with _ | ⟨name', comment', params', returnType', refusal'⟩ <;>
      rw [hs, ht] at hlook <;> simp only [Option.map_none, Option.map_some, reduceCtorEq, Option.some.injEq] at hlook
    · exact whole.abreast hst
    · obtain ⟨-, -, rfl, -, -⟩ := Function.mk.inj hlook
      cases params' with
      | nil => exact whole.abreast hst
      | cons p ps => exact parts.abreast hst

end Signature

namespace Pass

theorem applyMatch_follows (policy : Policy) (m : Method) (symbol : String) (i : Nat) :
    Follows R M Stop (applyMatch resolve policy m symbol i) (applyMatch resolve' policy m symbol i) := by
  refine Follows.tryCatch (Follows.bind (Signature.assign_follows compare i m) fun _ => Follows.pure _)
    (fun fault => ?_) fun fault s u hstop => ?_
  · split
    · exact Follows.bind (compare.print _) fun _ => Follows.pure _
    · exact Follows.throw _
  · obtain ⟨message, rfl⟩ := compare.refused hstop
    rfl

theorem matchMethod_follows (policy : Policy) (index : List (String × Nat)) (isShared : Bool) (m : Method) :
    Follows R M Stop (matchMethod resolve policy index isShared m) (matchMethod resolve' policy index isShared m) := by
  unfold matchMethod
  cases Symbol.ofMethod isShared m.qualifiedName with
  | error fault => exact Follows.bind (compare.print _) fun _ => Follows.pure _
  | ok symbol =>
    refine Follows.bind (compare.print _) fun _ => ?_
    cases index.lookup symbol with
    | none => exact Follows.pure _
    | some i => exact applyMatch_follows compare policy m symbol i

theorem matchMethods_follows (policy : Policy) (index : List (String × Nat)) (shared : List String)
    (methods : List Method) :
    Follows R M Stop (matchMethods resolve policy index shared methods)
      (matchMethods resolve' policy index shared methods) := by
  induction methods with
  | nil => exact Follows.pure _
  | cons m rest ih =>
    exact Follows.bind (matchMethod_follows compare policy index _ m) fun _ => Follows.bind ih fun _ => Follows.pure _

theorem modifyOnLoad_follows (positions : List Nat) :
    Follows R M Stop (modifyOnLoad resolve positions) (modifyOnLoad resolve' positions) := by
  induction positions with
  | nil => exact Follows.pure _
  | cons i rest ih =>
    exact Follows.bind (Signature.assignOnLoad_follows compare i) fun _ =>
      Follows.bind (compare.functionName i) fun _ => Follows.bind ih fun _ => Follows.pure _

theorem runWith_follows (policy : Policy) (methods : List Method) :
    Follows R M Stop (runWith resolve policy methods) (runWith resolve' policy methods) :=
  Follows.bind (compare.print _) fun _ => Follows.bind compare.take fun inventory =>
    Follows.bind (compare.lines _) fun _ => Follows.bind (modifyOnLoad_follows compare inventory.onLoad) fun _ =>
    Follows.bind (compare.print _) fun _ => Follows.bind (compare.print _) fun _ =>
    Follows.bind (compare.lines _) fun _ => Follows.bind (compare.print _) fun _ =>
    Follows.bind (compare.print _) fun _ =>
    Follows.bind (matchMethods_follows compare policy inventory.index _ methods) fun _ =>
    Follows.bind (compare.print _) fun _ => Follows.pure _

end Pass

end Steps

end JniSignatures
