import Mathlib
import JniSignatures.Proofs.Pass.Course
import JniSignatures.Proofs.Pass.Steps
/-!
# The calls that a pass makes

Look-ups of types apart, the calls of a pass are known before it begins, up to the point where it may fail:
it lists the functions, makes the calls for those that run on loading (`loadCalls`), and then those for the
methods that are assigned to functions (`run_deeds`). `Makes` is the judgement behind it, with one rule for
each way to build an action.
-/

namespace JniSignatures

/-- The calls so far, without those that look up types. -/
def Session.deeds (s : Session) : List Call :=
  s.calls.filter (!·.isLookUp)

theorem Session.deeds_record (s : Session) {call : Call} (h : call.isLookUp = false) :
    ({ s with calls := s.calls ++ [call] } : Session).deeds = s.deeds ++ [call] := by
  rw [deeds, List.filter_append, List.filter_singleton, h]
  rfl

/-- Nothing but look-ups has been called from one session to the other. -/
def Session.SameDeeds (s t : Session) : Prop :=
  t.deeds = s.deeds

instance : IsPreorder Session Session.SameDeeds where
  refl _ := rfl
  trans _ _ _ h h' := h'.trans h

theorem Session.SameDeeds.reads : Session.Reads Session.SameDeeds where
  asked s path := by
    rw [SameDeeds, deeds, List.filter_append]
    exact List.append_nil _
  lines _ _ := rfl
  learned _ _ _ := rfl

/-- From a session, an action makes the calls of a list, look-ups apart: all of them if it returns, and the
first ones of them if it fails. -/
def Makes {α : Type} (s : Session) (action : Action α) (calls : List Call) : Prop :=
  ∃ made, (exec action s).2.deeds = s.deeds ++ made ∧ made <+: calls ∧
    ∀ x, (exec action s).1 = .ok x → made = calls

/-! ## The rules -/

section Rules

variable {α β : Type} {s : Session} {action : Action α} {calls more : List Call} {call : Call}

theorem Makes.of_moves (h : Moves Session.SameDeeds action) (s : Session) : Makes s action [] :=
  ⟨[], (h s).trans (List.append_nil _).symm, List.prefix_rfl, fun _ _ => rfl⟩

theorem Makes.of_exec_eq {r : Except ActionFault α} {t : Session} (he : exec action s = (r, t))
    (h : t.deeds = s.deeds ++ calls) : Makes s action calls := by
  rw [Makes, he]
  exact ⟨calls, h, List.prefix_rfl, fun _ _ => rfl⟩

theorem Makes.bind {next : α → Action β} (h : Makes s action calls)
    (hn : ∀ x t, exec action s = (.ok x, t) → Makes t (next x) more) : Makes s (action >>= next) (calls ++ more) := by
  obtain ⟨made, hdeeds, hfirst, hall⟩ := h
  cases ha : exec action s with
  | mk r t =>
    rw [ha] at hdeeds hall
    cases r with
    | error e =>
      rw [Makes, exec_bind_error ha]
      exact ⟨made, hdeeds, List.prefix_append_of_prefix hfirst, nofun⟩
    | ok x =>
      obtain rfl := hall x rfl
      obtain ⟨made', hdeeds', hfirst', hall'⟩ := hn x t ha
      rw [Makes, exec_bind_ok ha]
      refine ⟨made ++ made', ?_, (List.prefix_append_right_inj _).2 hfirst', fun y hy => by rw [hall' y hy]⟩
      rw [hdeeds', hdeeds, List.append_assoc]

/-- What comes before does not count if it only looks up types. -/
theorem Makes.quiet_bind {next : α → Action β} (h : Moves Session.SameDeeds action)
    (hn : ∀ x t, exec action s = (.ok x, t) → Makes t (next x) calls) : Makes s (action >>= next) calls :=
  (Makes.of_moves h s).bind hn

/-- What comes after does not count if it only looks up types. -/
theorem Makes.bind_quiet {next : α → Action β} (h : Makes s action calls)
    (hn : ∀ x, Moves Session.SameDeeds (next x)) : Makes s (action >>= next) calls := by
  have hall := h.bind fun x t _ => Makes.of_moves (hn x) t
  rwa [List.append_nil] at hall

theorem Makes.get_bind {next : Session → Action β} (h : Makes s (next s) calls) : Makes s (get >>= next) calls := by
  rwa [Makes, exec_bind_ok (show exec get s = (.ok s, s) from rfl)]

/-- A call to change a function is made whether the host refuses it or not. -/
theorem Action.exec_change (call : Call) (setter : Setter) (i : Nat) (edit : Function → Function) (s : Session) :
    exec (Action.change call setter i edit) s =
      match s.functions[i]?.bind (·.refusalOf setter) with
      | some message => (.error (.refused message), { s with calls := s.calls ++ [call] })
      | none => (.ok (), { s with calls := s.calls ++ [call], functions := s.functions.modify i edit }) := by
  have hrecord : exec (Action.record call) s = (.ok (), { s with calls := s.calls ++ [call] }) := rfl
  rw [Action.change, exec_bind_ok hrecord]
  show exec (match s.functions[i]?.bind (·.refusalOf setter) with
    | some message => _
    | none => _) _ = _
  cases s.functions[i]?.bind (·.refusalOf setter) <;> rfl

theorem Makes.change {setter : Setter} {i : Nat} {edit : Function → Function} (h : call.isLookUp = false) :
    Makes s (Action.change call setter i edit) [call] := by
  have he := Action.exec_change call setter i edit s
  cases hr : s.functions[i]?.bind (·.refusalOf setter) with
  | some message =>
    rw [hr] at he
    exact Makes.of_exec_eq he (s.deeds_record h)
  | none =>
    rw [hr] at he
    exact Makes.of_exec_eq he (s.deeds_record h)

end Rules

/-! ## Functions that run on loading -/

/-- The calls for a function that runs on loading. -/
def Function.loadCalls (machine version : String) (i : Nat) (f : Function) : List Call :=
  match f.params with
  | [] => [.replaceSignature i version [⟨Signature.machineName, machine⟩]]
  | _ :: _ =>
    [.setParameterName i 0 Signature.machineName, .setParameterType i 0 machine, .setReturnType i version]

namespace Catalog

theorem resolve_returned {typeName : Text} {descriptor : String} {s t : Session}
    (h : exec (resolve typeName) s = (.ok descriptor, t)) :
    s.typeOf typeName = some descriptor ∧ t.typeOf = s.typeOf ∧ t.functions = s.functions := by
  cases hn : s.typeOf typeName with
  | none => cases ((resolve_missing hn).exec_eq h).1
  | some d =>
    obtain ⟨hd, ht, hf⟩ := (resolve_ends hn).exec_eq h
    cases hd
    exact ⟨rfl, ht, hf⟩

end Catalog

namespace Signature

open JniSignatures.Action (Ends)

variable {s t : Session} {i : Nat} {f : Function}

theorem assignOnLoad_makes (h : s.functions[i]? = some f) : Makes s (assignOnLoad Catalog.resolve i)
    (f.loadCalls ((s.typeOf machineType).getD "") ((s.typeOf versionType).getD "") i) := by
  refine Makes.quiet_bind (Action.functionName_moves i) fun name a ha => ?_
  refine Makes.quiet_bind (Action.print_moves Session.SameDeeds.reads _) fun _ b hb => ?_
  refine Makes.quiet_bind (Catalog.resolve_moves Session.SameDeeds.reads.toLooksUp _) fun machine c hc => ?_
  refine Makes.quiet_bind (Catalog.resolve_moves Session.SameDeeds.reads.toLooksUp _) fun version d hd => ?_
  -- None of the four steps so far has changed a function or what the catalog says.
  cases ha
  obtain ⟨-, hbt, hbf⟩ := (Ends.print _).exec_eq hb
  obtain ⟨hmachine, hct, hcf⟩ := Catalog.resolve_returned hc
  obtain ⟨hversion, -, hdf⟩ := Catalog.resolve_returned hd
  rw [hbt] at hmachine
  rw [hct, hbt] at hversion
  have hf : d.functions[i]? = some f := by rw [hdf, hcf, hbf, h]
  rw [hmachine, hversion]
  refine Makes.get_bind ?_
  rw [hf]
  obtain ⟨name, comment, params, returnType, refusal⟩ := f
  cases params with
  | nil => exact Makes.change rfl
  | cons p ps =>
    exact ((Makes.change rfl).bind fun _ _ _ => Makes.change rfl).bind fun _ _ _ => Makes.change rfl

/-- A function that could be changed on loading is the only one that has changed. -/
theorem assignOnLoad_returned (h : s.functions[i]? = some f)
    (he : exec (assignOnLoad Catalog.resolve i) s = (.ok (), t)) :
    t.typeOf = s.typeOf ∧ ∃ g, t.functions = s.functions.set i g := by
  cases hmiss : Pass.loadMissing? s.typeOf with
  | some typeName => cases ((assignOnLoad_missing h hmiss).exec_eq he).1
  | none =>
    obtain ⟨machine, version, hm, hv⟩ := Pass.loadMissing?_eq_none_iff.1 hmiss
    cases hr : f.onLoadRefusal? with
    | some r => cases ((assignOnLoad_refused hm hv h hr).exec_eq he).1
    | none =>
      obtain ⟨-, ht, hf⟩ := (assignOnLoad_ends hm hv h hr).exec_eq he
      exact ⟨ht, _, hf⟩

end Signature

namespace Pass

open JniSignatures.Action (Ends)

variable {policy : Policy} {types : TypeMap} {methods : List Method} {fs : List Function} {s t : Session}
  {m : Method}

/-- The functions that run on loading, with their positions, in the order of the program. -/
def onLoads (fs : List Function) : List (Function × Nat) :=
  fs.zipIdx.filter fun entry => entry.1.isOnLoad

/-- The calls for all functions that run on loading. -/
def loadCalls (types : TypeMap) (fs : List Function) : List Call :=
  (onLoads fs).flatMap fun entry =>
    entry.1.loadCalls ((types Signature.machineType).getD "") ((types Signature.versionType).getD "") entry.2

theorem mem_onLoads_iff {f : Function} {i : Nat} : (f, i) ∈ onLoads fs ↔ fs[i]? = some f ∧ f.isOnLoad := by
  rw [onLoads, List.mem_filter, List.mem_zipIdx_iff_getElem?]

theorem map_snd_onLoads (fs : List Function) : (onLoads fs).map (·.2) = (Inventory.ofFunctions fs).onLoad := by
  induction fs using List.reverseRecOn with
  | nil => rfl
  | append_singleton fs f ih =>
    rw [Inventory.ofFunctions_concat, Inventory.add_onLoad, ← ih, onLoads, List.zipIdx_append, List.filter_append,
      List.map_append]
    by_cases hf : f.isOnLoad <;> simp [onLoads, hf]

/-- The positions are distinct, so a function is as it was when its turn comes. -/
theorem modifyOnLoad_makes {entries : List (Function × Nat)} (hd : (entries.map (·.2)).Nodup)
    (h : ∀ entry ∈ entries, s.functions[entry.2]? = some entry.1) :
    Makes s (modifyOnLoad Catalog.resolve (entries.map (·.2))) (entries.flatMap fun entry =>
      entry.1.loadCalls ((s.typeOf Signature.machineType).getD "") ((s.typeOf Signature.versionType).getD "") entry.2) := by
  induction entries generalizing s with
  | nil => exact Makes.of_moves (Moves.pure _) s
  | cons entry rest ih =>
    obtain ⟨hi, hd⟩ := List.nodup_cons.1 hd
    have hf := h entry List.mem_cons_self
    rw [List.flatMap_cons]
    refine (Signature.assignOnLoad_makes hf).bind fun _ a ha => ?_
    obtain ⟨hat, g, haf⟩ := Signature.assignOnLoad_returned hf ha
    refine Makes.quiet_bind (Action.functionName_moves _) fun name b hb => Makes.bind_quiet ?_ fun _ => Moves.pure _
    cases hb
    rw [← hat]
    refine ih hd fun other ho => ?_
    have hne : entry.2 ≠ other.2 := fun heq => hi (List.mem_map.2 ⟨other, ho, heq.symm⟩)
    rw [haf, List.getElem?_set_ne hne, h other (List.mem_cons_of_mem _ ho)]

theorem modifyOnLoad_returned {positions : List Nat} {names : List String}
    (h : ∀ i ∈ positions, i < s.functions.length)
    (he : exec (modifyOnLoad Catalog.resolve positions) s = (.ok names, t)) :
    t.typeOf = s.typeOf ∧ t.functions.length = s.functions.length := by
  induction positions generalizing s names with
  | nil =>
    cases he
    exact ⟨rfl, rfl⟩
  | cons i rest ih =>
    obtain ⟨_, a, ha, he⟩ := exec_bind_eq_ok he
    obtain ⟨name, b, hb, he⟩ := exec_bind_eq_ok he
    cases hb
    obtain ⟨others, c, hc, he⟩ := exec_bind_eq_ok he
    cases he
    have hi := h i List.mem_cons_self
    obtain ⟨hat, g, haf⟩ := Signature.assignOnLoad_returned (List.getElem?_eq_getElem hi) ha
    have hlength : a.functions.length = s.functions.length := by rw [haf, List.length_set]
    obtain ⟨hct, hcl⟩ := ih (fun j hj => hlength ▸ h j (List.mem_cons_of_mem _ hj)) hc
    exact ⟨hct.trans hat, hcl.trans hlength⟩

/-! ## Methods -/

/-- The calls for a method. -/
def Verdict.calls : Verdict → List Call
  | .assigned i signature => [.replaceSignature i signature.returnType signature.params]
  | _ => []

variable {index : List (String × Nat)} {shared : List String}

theorem applyMatch_makes {symbol : String} {i : Nat} (hm : Signature.missing? s.typeOf m = none) :
    Makes s (applyMatch Catalog.resolve policy m symbol i)
      [.replaceSignature i (Signature.described s.typeOf m).returnType (Signature.described s.typeOf m).params] := by
  obtain ⟨a, ha, -, -⟩ := Signature.ofMethod_ends hm s rfl rfl
  have hquiet : a.deeds = s.deeds := (Signature.ofMethod_moves Session.SameDeeds.reads.toLooksUp m).of_exec ha
  generalize Signature.described s.typeOf m = signature at ha ⊢
  have hchange := Action.exec_change (.replaceSignature i signature.returnType signature.params) .signature i
    (fun f => { f with params := signature.params, returnType := signature.returnType }) a
  -- The handler is for missing types, and lets a refusal pass.
  cases hr : a.functions[i]?.bind (·.refusalOf .signature) with
  | some message =>
    rw [hr] at hchange
    have hassign : exec (Signature.assign Catalog.resolve i m) s = (.error (.refused message), _) :=
      (exec_bind_ok ha).trans (exec_bind_error hchange)
    refine Makes.of_exec_eq (exec_tryCatch_error (exec_bind_error hassign)) ?_
    rw [← hquiet]
    exact a.deeds_record rfl
  | none =>
    rw [hr] at hchange
    have hassign : exec (Signature.assign Catalog.resolve i m) s = (.ok _, _) :=
      (exec_bind_ok ha).trans (exec_bind_ok hchange)
    refine Makes.of_exec_eq (exec_tryCatch_ok (exec_bind_ok hassign)) ?_
    rw [← hquiet]
    exact a.deeds_record rfl

/-- A method that lacks a type does not come to its function. -/
theorem applyMatch_makes_nil {symbol : String} {typeName : Text} {i : Nat}
    (hm : Signature.missing? s.typeOf m = some typeName) :
    Makes s (applyMatch Catalog.resolve policy m symbol i) [] := by
  obtain ⟨a, ha, -, -⟩ := Signature.ofMethod_missing hm s rfl rfl
  have hquiet : a.deeds = s.deeds := (Signature.ofMethod_moves Session.SameDeeds.reads.toLooksUp m).of_exec ha
  have hassign : exec (Signature.assign Catalog.resolve i m) s = (.error _, a) := exec_bind_error ha
  cases policy with
  | abort =>
    refine Makes.of_exec_eq (exec_tryCatch_error (exec_bind_error hassign)) ?_
    rw [List.append_nil]
    exact hquiet
  | skip =>
    refine Makes.of_exec_eq (exec_tryCatch_error (exec_bind_error hassign)) ?_
    rw [List.append_nil]
    exact hquiet

theorem matchMethod_makes (policy : Policy) (index : List (String × Nat)) (shared : List String) (m : Method)
    (s : Session) :
    Makes s (matchMethod Catalog.resolve policy index (shared.contains (Symbol.ofName m.qualifiedName)) m)
      (verdict s.typeOf index shared m).calls := by
  have hprint : ∀ line, Moves Session.SameDeeds (Action.print line) := Action.print_moves Session.SameDeeds.reads
  unfold matchMethod verdict
  cases shared.contains (Symbol.ofName m.qualifiedName) with
  | true => exact Makes.of_moves (Moves.bind (hprint _) fun _ => Moves.pure _) s
  | false =>
    refine Makes.quiet_bind (hprint _) fun _ a ha => ?_
    have htypes : a.typeOf = s.typeOf := ((Ends.print _).exec_eq ha).2.1
    rw [if_neg Bool.false_ne_true, ← htypes]
    cases index.lookup (Symbol.ofName m.qualifiedName) with
    | none => exact Makes.of_moves (Moves.pure _) a
    | some i =>
      dsimp only
      cases hm : Signature.missing? a.typeOf m with
      | some typeName => exact applyMatch_makes_nil hm
      | none => exact applyMatch_makes hm

theorem matchMethod_returned {o : Outcome} (hi : InRange index s.functions)
    (he : exec (matchMethod Catalog.resolve policy index (shared.contains (Symbol.ofName m.qualifiedName)) m) s =
      (.ok o, t)) : t.typeOf = s.typeOf ∧ InRange index t.functions := by
  cases hf : (verdict s.typeOf index shared m).fault? policy s.functions with
  | some e => cases ((matchMethod_stops hi hf).exec_eq he).1
  | none =>
    obtain ⟨-, ht, hfs⟩ := (matchMethod_ends hi hf).exec_eq he
    exact ⟨ht, hfs ▸ hi.perform _⟩

theorem matchMethods_makes (policy : Policy) (hi : InRange index s.functions) (methods : List Method) :
    Makes s (matchMethods Catalog.resolve policy index shared methods)
      (methods.flatMap fun m => (verdict s.typeOf index shared m).calls) := by
  induction methods generalizing s with
  | nil => exact Makes.of_moves (Moves.pure _) s
  | cons m rest ih =>
    rw [List.flatMap_cons]
    refine (matchMethod_makes policy index shared m s).bind fun o a ha => Makes.bind_quiet ?_ fun _ => Moves.pure _
    obtain ⟨htypes, hrange⟩ := matchMethod_returned hi ha
    rw [← htypes]
    exact ih hrange

/-! ## A whole pass -/

/-- The changes to the functions that run on loading. -/
def loading (inventory : Inventory) : Action (Inventory × List String) := do
  Action.printAll (inventory.indexed.map Text.ofString)
  let onLoadModified ← modifyOnLoad Catalog.resolve inventory.onLoad
  return (inventory, onLoadModified)

/-- A pass up to the declared methods. -/
def opening : Action (Inventory × List String) := do
  Action.print "[+] Enumerating JNI functions..."
  let inventory ← Inventory.take
  loading inventory

/-- A pass from the declared methods on. -/
def closing (policy : Policy) (methods : List Method) (opened : Inventory × List String) : Action Report := do
  Action.print ("Total JNI functions found: " ++ toString opened.1.index.length)
  Action.print "Ignored JNI functions:"
  Action.printAll (opened.1.ignored.map Text.ofString)
  Action.print ""
  Action.print "[+] Applying function signatures..."
  let shared := Symbol.shared (methods.map (·.qualifiedName))
  let outcomes ← matchMethods Catalog.resolve policy opened.1.index shared methods
  let report : Report :=
    { indexed := opened.1.indexed, ignored := opened.1.ignored, onLoadModified := opened.2, outcomes }
  Action.print (closingLine report.summary)
  return report

theorem run_eq_bind (policy : Policy) (methods : List Method) :
    run policy methods = opening >>= closing policy methods := by
  simp only [run, runWith, opening, loading, closing, bind_assoc, pure_bind]

/-- A pass on the session comes to the declared methods. -/
def ComesToMethods (s : Session) : Prop :=
  ∃ opened t, exec opening s = (.ok opened, t)

theorem loading_makes (s : Session) :
    Makes s (loading (Inventory.ofFunctions s.functions)) (loadCalls s.typeOf s.functions) := by
  refine Makes.quiet_bind (Action.printAll_moves Session.SameDeeds.reads _) fun _ a ha => ?_
  refine Makes.bind_quiet ?_ fun _ => Moves.pure _
  obtain ⟨-, htypes, hfs⟩ := (Ends.printAll _).exec_eq ha
  rw [← map_snd_onLoads, ← htypes]
  refine modifyOnLoad_makes ?_ fun entry hentry => ?_
  · rw [map_snd_onLoads]
    exact (Inventory.onLoad_sorted _).imp Nat.ne_of_lt
  · rw [hfs]
    exact (mem_onLoads_iff.1 hentry).1

theorem loading_returned {opened : Inventory × List String}
    (he : exec (loading (Inventory.ofFunctions s.functions)) s = (.ok opened, t)) :
    opened.1 = Inventory.ofFunctions s.functions ∧ t.typeOf = s.typeOf ∧ t.functions.length = s.functions.length := by
  obtain ⟨_, a, ha, he⟩ := exec_bind_eq_ok he
  obtain ⟨names, b, hb, he⟩ := exec_bind_eq_ok he
  cases he
  obtain ⟨-, htypes, hfs⟩ := (Ends.printAll _).exec_eq ha
  have hrange : ∀ i ∈ (Inventory.ofFunctions s.functions).onLoad, i < a.functions.length := by
    intro i hi
    obtain ⟨f, hf, -⟩ := Inventory.mem_onLoad_iff.1 hi
    rw [hfs]
    exact (List.getElem?_eq_some_iff.1 hf).1
  obtain ⟨hbt, hbl⟩ := modifyOnLoad_returned hrange hb
  exact ⟨rfl, hbt.trans htypes, by rw [hbl, hfs]⟩

theorem closing_makes (policy : Policy) (methods : List Method) {opened : Inventory × List String}
    (hi : InRange opened.1.index s.functions) : Makes s (closing policy methods opened)
      (methods.flatMap fun m =>
        (verdict s.typeOf opened.1.index (Symbol.shared (methods.map (·.qualifiedName))) m).calls) := by
  have reads := Session.SameDeeds.reads
  refine Makes.quiet_bind (Action.print_moves reads _) fun _ a ha => ?_
  refine Makes.quiet_bind (Action.print_moves reads _) fun _ b hb => ?_
  refine Makes.quiet_bind (Action.printAll_moves reads _) fun _ c hc => ?_
  refine Makes.quiet_bind (Action.print_moves reads _) fun _ d hd => ?_
  refine Makes.quiet_bind (Action.print_moves reads _) fun _ e he => ?_
  -- The lines before the methods change nothing that the methods depend on.
  cases ha; cases hb; cases hc; cases hd; cases he
  refine Makes.bind_quiet ?_ fun _ => Moves.bind (Action.print_moves reads _) fun _ => Moves.pure _
  refine matchMethods_makes policy ?_ methods
  exact hi

/-- The session when a pass has listed the functions. -/
def listed (s : Session) : Session :=
  { s with calls := s.calls ++ [.listFunctions], printed := s.printed ++ [↑"[+] Enumerating JNI functions..."] }

theorem deeds_listed (s : Session) : (listed s).deeds = s.deeds ++ [.listFunctions] :=
  s.deeds_record rfl

/-- The listing never fails. -/
theorem exec_opening (s : Session) :
    exec opening s = exec (loading (Inventory.ofFunctions s.functions)) (listed s) :=
  rfl

/-- A pass lists the functions and makes the calls for those that run on loading. If it comes to the methods,
then it has made all of these, and makes those for the methods. -/
theorem run_deeds (policy : Policy) (methods : List Method) (s : Session) : ∃ loads applies,
    (exec (run policy methods) s).2.deeds = s.deeds ++ .listFunctions :: (loads ++ applies) ∧
      loads <+: loadCalls s.typeOf s.functions ∧
      (ComesToMethods s → loads = loadCalls s.typeOf s.functions) ∧
      (¬ ComesToMethods s → applies = []) ∧
      applies <+: methods.flatMap fun m => (judge s.typeOf methods s.functions m).calls := by
  have hmakes : Makes (listed s) (loading (Inventory.ofFunctions s.functions)) (loadCalls s.typeOf s.functions) :=
    loading_makes (listed s)
  obtain ⟨loads, hdeeds, hfirst, hall⟩ := hmakes
  rw [deeds_listed, List.append_assoc, List.singleton_append, ← exec_opening] at hdeeds
  rw [← exec_opening] at hall
  rw [run_eq_bind]
  cases ho : exec opening s with
  | mk r t =>
    rw [ho] at hdeeds hall
    cases r with
    | error e =>
      have hnot : ¬ ComesToMethods s := by
        rintro ⟨opened, u, hu⟩
        rw [ho] at hu
        cases hu
      rw [exec_bind_error ho]
      refine ⟨loads, [], ?_, hfirst, fun h => absurd h hnot, fun _ => rfl, List.nil_prefix⟩
      rw [List.append_nil]
      exact hdeeds
    | ok opened =>
      have hreturned : exec (loading (Inventory.ofFunctions s.functions)) (listed s) = (.ok opened, t) := ho
      obtain ⟨hinventory, htypes, hlength⟩ := loading_returned hreturned
      have hrange : InRange opened.1.index t.functions := by
        intro symbol i hi
        rw [hinventory] at hi
        rw [hlength]
        exact inRange_index s.functions symbol i hi
      have hclosing := closing_makes policy methods hrange
      rw [hinventory, htypes] at hclosing
      obtain ⟨applies, hdeeds', hfirst', -⟩ := hclosing
      rw [exec_bind_ok ho]
      refine ⟨loads, applies, ?_, hfirst, fun _ => hall _ rfl, fun h => absurd ⟨opened, t, ho⟩ h, hfirst'⟩
      rw [hdeeds', hdeeds, List.append_assoc, List.cons_append]

end Pass

end JniSignatures
