import Mathlib
import JniSignatures.Proofs.Pass.Discipline
import JniSignatures.Proofs.Pass.SideBySide
import JniSignatures.Proofs.Pass.Unhindered
/-!
# How a pass treats the host

A pass makes the same calls as it makes where the host refuses nothing, up to the first one that is refused
(`Curtailed`). To see this, the two passes are compared side by side: they differ in nothing that a pass reads.
With the discipline that every pass keeps, `calls_disciplined` says all that the host sees of a pass.
-/

namespace JniSignatures.Pass

/-- The message with which the host refuses a call, if it does. -/
def refusal? (fs : List Function) (call : Call) : Option String :=
  call.change?.bind fun change => fs[change.1]?.bind (·.refusalOf change.2)

/-- How the calls of a pass compare with the full ones, which it makes where the host refuses nothing. -/
inductive Curtailed (fs : List Function) (r r' : Except ActionFault Report) : List Call → List Call → Prop
  | whole {calls : List Call} (same : r = r') (free : ∀ call ∈ calls, refusal? fs call = none) :
      Curtailed fs r r' calls calls
  /-- The first call that the host refuses is the last one. -/
  | refused {made after : List Call} {call : Call} {message : String} (fails : r = .error (.refused message))
      (free : ∀ c ∈ made, refusal? fs c = none) (refused : refusal? fs call = some message) :
      Curtailed fs r r' (made ++ [call]) (made ++ call :: after)

/-- Two sessions of passes that began with the functions `fs` and the calls `before`. The host has refused
nothing so far, and in the second one it refuses nothing at all. -/
structure Spared (fs : List Function) (before : List Call) (s t : Session) : Prop where
  same : t = { s with functions := s.functions.map Function.unrefused }
  refusals : s.functions.map (·.refusal) = fs.map (·.refusal)
  calls : ∃ made, s.calls = before ++ made ∧ ∀ call ∈ made, refusal? fs call = none

/-- The first pass has failed because the host has refused its last call, which the second one has made too. -/
def RefusedLast (fs : List Function) (before : List Call) (e : ActionFault) (s u : Session) : Prop :=
  ∃ made call message, e = .refused message ∧ s.calls = before ++ (made ++ [call]) ∧ u.calls = s.calls ∧
    (∀ c ∈ made, refusal? fs c = none) ∧ refusal? fs call = some message

/-! ## The two passes side by side -/

section SideBySide

variable {fs : List Function} {before : List Call} {s t : Session} {call : Call} {i : Nat} {setter : Setter}
  {edit : Function → Function}

theorem refusal?_of_change (hcall : call.change? = some (i, setter)) :
    refusal? fs call = fs[i]?.bind (·.refusalOf setter) := by
  rw [refusal?, hcall]
  rfl

theorem unhindered_unrefused (fs : List Function) : Unhindered (fs.map Function.unrefused) := by
  intro f hf
  obtain ⟨g, -, rfl⟩ := List.mem_map.1 hf
  rfl

theorem map_modify {α : Type} {g : Function → α} {edit : Function → Function} {edit' : α → α}
    (h : ∀ f, g (edit f) = edit' (g f)) (fs : List Function) (i : Nat) :
    (fs.modify i edit).map g = (fs.map g).modify i edit' := by
  refine List.ext_getElem? fun j => ?_
  rw [List.getElem?_map, List.getElem?_modify, List.getElem?_modify, List.getElem?_map]
  cases fs[j]? with
  | none => rfl
  | some f => by_cases hij : i = j <;> simp [hij, h]

theorem Spared.record (h : Spared fs before s t) (hfree : refusal? fs call = none) :
    Spared fs before { s with calls := s.calls ++ [call] } { t with calls := t.calls ++ [call] } := by
  obtain ⟨rfl, refusals, made, hmade, hall⟩ := h
  refine ⟨rfl, refusals, made ++ [call], ?_, ?_⟩
  · rw [hmade, List.append_assoc]
  · exact List.forall_mem_append.2 ⟨hall, List.forall_mem_singleton.2 hfree⟩

theorem Spared.edited (h : Spared fs before s t) (hunrefused : ∀ f, Function.unrefused (edit f) = edit f.unrefused)
    (hrefusal : ∀ f, (edit f).refusal = f.refusal) (i : Nat) :
    Spared fs before { s with functions := s.functions.modify i edit }
      { t with functions := t.functions.modify i edit } := by
  obtain ⟨rfl, refusals, calls⟩ := h
  refine ⟨?_, ?_, calls⟩
  · rw [map_modify hunrefused]
  · have hid : ∀ f, (edit f).refusal = id f.refusal := hrefusal
    rw [map_modify hid, refusals, List.modify_id]

theorem resolve_spared (fs : List Function) (before : List Call) (typeName : Text) :
    Follows (Spared fs before) (Session.Calls Call.isOfPass) (RefusedLast fs before) (Catalog.resolve typeName)
      (Catalog.resolve typeName) := by
  refine ⟨Catalog.resolve_moves Session.Calls.steps.acts.looksUp typeName, fun {s t} h => ?_⟩
  have hs := Catalog.exec_query typeName s
  have ht := Catalog.exec_query typeName t
  have hasked : Spared fs before { s with calls := s.calls ++ [.lookUpType (Catalog.path typeName)] }
      { t with calls := t.calls ++ [.lookUpType (Catalog.path typeName)] } := h.record rfl
  rw [Catalog.resolve, exec_bind_ok (show exec get s = (.ok s, s) from rfl),
    exec_bind_ok (show exec get t = (.ok t, t) from rfl)]
  rw [show t.types.lookup typeName = s.types.lookup typeName by rw [h.same]] at ht
  rw [show t.known.lookup typeName = s.known.lookup typeName by rw [h.same]]
  cases s.known.lookup typeName with
  | some descriptor => exact .together h
  | none =>
    dsimp only
    cases htypes : s.types.lookup typeName with
    | none =>
      rw [htypes] at hs ht
      rw [exec_bind_error hs, exec_bind_error ht]
      exact .together hasked
    | some descriptor =>
      rw [htypes] at hs ht
      rw [exec_bind_ok hs, exec_bind_ok ht]
      exact .together { hasked with same := by rw [h.same] }

/-- A call that the host refuses to the first pass is the last one there; the second pass goes on. -/
theorem change_spared (fs : List Function) (before : List Call) (hcall : call.change? = some (i, setter))
    (hunrefused : ∀ f, Function.unrefused (edit f) = edit f.unrefused) (hrefusal : ∀ f, (edit f).refusal = f.refusal) :
    Follows (Spared fs before) (Session.Calls Call.isOfPass) (RefusedLast fs before)
      (Action.change call setter i edit) (Action.change call setter i edit) := by
  have hkind : call.isOfPass := by cases call <;> first | rfl | cases hcall
  refine ⟨Action.change_moves Session.Calls.steps.acts hkind setter i edit, fun {s t} h => ?_⟩
  have hs := Action.exec_change call setter i edit s
  have ht := Action.exec_change call setter i edit t
  have hnone : t.functions[i]?.bind (·.refusalOf setter) = none := by
    rw [h.same]
    exact refusalOf_of_unhindered (unhindered_unrefused _) i setter
  have hrefusal? : refusal? fs call = s.functions[i]?.bind (·.refusalOf setter) := by
    rw [refusal?_of_change hcall]
    exact (Verdict.refusalOf_congr h.refusals i setter).symm
  rw [hnone] at ht
  rw [hs, ht, ← hrefusal?]
  cases hr : refusal? fs call with
  | none => exact .together ((h.record hr).edited hunrefused hrefusal i)
  | some message =>
    obtain ⟨made, hmade, hall⟩ := h.calls
    have hstop : RefusedLast fs before (.refused message) { s with calls := s.calls ++ [call] }
        { t with calls := t.calls ++ [call] } := by
      refine ⟨made, call, message, rfl, ?_, ?_, hall, hr⟩
      · rw [hmade, List.append_assoc]
      · rw [h.same]
    exact .stopped hstop (Session.Calls.of_eq rfl)

theorem comparison (fs : List Function) (before : List Call) :
    Comparison (Spared fs before) (Session.Calls Call.isOfPass) (RefusedLast fs before) Catalog.resolve
      Catalog.resolve where
  looks h := by
    rw [h.same, List.map_map]
    rfl
  lines lines := Follows.modify (fun t => Session.Calls.steps.lines t lines) fun h =>
    { h with same := by rw [h.same] }
  listing := Follows.modify (fun t => Session.Calls.steps.call t _ rfl) fun h => h.record rfl
  resolve := resolve_spared fs before
  change := change_spared fs before
  refused := fun ⟨_, _, message, he, _⟩ => ⟨message, he⟩

end SideBySide

/-! ## Whole passes -/

section Passes

variable {policy : Policy} {methods : List Method} {s t t' : Session} {r r' : Except ActionFault Report}

theorem Curtailed.first {fs : List Function} {made full : List Call} (h : Curtailed fs r r' made full) :
    made <+: full := by
  cases h with
  | whole => exact List.prefix_rfl
  | @refused made after call => exact ⟨after, List.append_assoc ..⟩

theorem curtailed_of_exec (h : exec (run policy methods) s = (r, t))
    (h' : exec (run policy methods) { s with functions := s.functions.map Function.unrefused } = (r', t')) :
    ∃ made full, t.calls = s.calls ++ made ∧ t'.calls = s.calls ++ full ∧ Curtailed s.functions r r' made full := by
  have hspared : Spared s.functions s.calls s { s with functions := s.functions.map Function.unrefused } :=
    ⟨rfl, rfl, [], (List.append_nil _).symm, List.forall_mem_nil _⟩
  have habreast := (runWith_follows (comparison s.functions s.calls) policy methods).abreast hspared
  change Abreast _ _ _ (exec (run policy methods) _) (exec (run policy methods) _) at habreast
  rw [h, h'] at habreast
  cases habreast with
  | together related =>
    obtain ⟨made, hmade, free⟩ := related.calls
    exact ⟨made, made, hmade, by rw [related.same]; exact hmade, .whole rfl free⟩
  | stopped stop goesOn =>
    obtain ⟨made, call, message, rfl, hmade, hu, free, hr⟩ := stop
    obtain ⟨after, hafter, -⟩ := goesOn
    refine ⟨made ++ [call], made ++ call :: after, hmade, ?_, .refused rfl free hr⟩
    rw [hafter, hu, hmade]
    simp only [List.append_assoc, List.singleton_append]

/-- What the host sees of a pass: the first calls of the pass that it makes where the host refuses nothing, up
to the one that is refused, if one is; and these treat the functions as they should. -/
theorem calls_disciplined (h : exec (run policy methods) s = (r, t))
    (h' : exec (run policy methods) { s with functions := s.functions.map Function.unrefused } = (r', t')) :
    ∃ made full, t.calls = s.calls ++ made ∧ t'.calls = s.calls ++ full ∧ made <+: full ∧
      Curtailed s.functions r r' made full ∧ Disciplined s.typeOf s.functions (ComesToMethods s) made := by
  obtain ⟨made, full, hmade, hfull, hcurtailed⟩ := curtailed_of_exec h h'
  exact ⟨made, full, hmade, hfull, hcurtailed.first, hcurtailed, disciplined_of_exec h hmade⟩

end Passes

theorem library_disciplined :
    let hindered := library (some ⟨.parameterType, "no"⟩)
    ∃ r t r' t', exec (run .skip [libraryMethod]) hindered = (r, t) ∧
      exec (run .skip [libraryMethod]) (library none) = (r', t') ∧
      callsOn 0 t.calls = [.setParameterName 0 0 "vm", .setParameterType 0 0 "V"] ∧
      callsOn 0 t'.calls = [.setParameterName 0 0 "vm", .setParameterType 0 0 "V", .setReturnType 0 "I"] ∧
      callsOn 1 t'.calls = [.replaceSignature 1 "I" [⟨"env", "E"⟩, ⟨"thiz", "O"⟩, ⟨"a0", "I"⟩]] ∧
      ∃ made full, t.calls = hindered.calls ++ made ∧ t'.calls = hindered.calls ++ full ∧ made <+: full ∧
        Curtailed hindered.functions r r' made full ∧
        Disciplined hindered.typeOf hindered.functions (ComesToMethods hindered) made :=
  have h := (Prod.eta (exec (run .skip [libraryMethod]) (library (some ⟨.parameterType, "no"⟩)))).symm
  have h' := (Prod.eta (exec (run .skip [libraryMethod]) (library none))).symm
  ⟨_, _, _, _, h, h', rfl, rfl, rfl, calls_disciplined h h'⟩

end JniSignatures.Pass
