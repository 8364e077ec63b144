import Mathlib
import JniSignatures.Proofs.Pass.SideBySide
import JniSignatures.Proofs.Pass.Steps
/-!
# What a catalog remembers

A catalog remembers the types that it has found, over a whole series of operations and whatever becomes of
them. Nothing but the record of calls shows it: next to a catalog that asks the archive each time, the
operations answer, fail, print and change functions alike, and all calls but the look-ups are the same
(`memory_unseen`). A type that the archive has is asked for once, if at all; one that it lacks is asked for
as often as it is wanted, because only finds are remembered.
-/

namespace JniSignatures

/-! ## Operations with one catalog -/

/-- Something that is done with a catalog, or to the functions between two such things. -/
inductive Operation where
  | find (typeName : Text)
  | parameters (m : Method)
  | assign (function : Nat) (m : Method)
  | assignOnLoad (function : Nat)
  | pass (policy : Policy) (methods : List Method)
  /-- Somebody else changes the functions of the program. -/
  | edit (change : List Function → List Function)

/-- What an operation answers if it does not fail. -/
inductive Operation.Answer where
  | descriptor (descriptor : String)
  | parameters (params : List Parameter)
  | count (parameters : Nat)
  | report (report : Report)
  | done
  deriving DecidableEq

namespace Operation

/-- Does an operation, with a given way to find types. -/
def perform (resolve : Resolver) : Operation → Action Answer
  | .find typeName => return .descriptor (← resolve typeName)
  | .parameters m => return .parameters (← Signature.parameters resolve m)
  | .assign function m => return .count (← Signature.assign resolve function m)
  | .assignOnLoad function => do
    Signature.assignOnLoad resolve function
    return .done
  | .pass policy methods => return .report (← Pass.runWith resolve policy methods)
  | .edit change => do
    modify fun s => { s with functions := change s.functions }
    return .done

/-- Operations one after the other: for each of them how it ends, and the session after it. A failure ends
the operation that fails and not those after it. -/
def trace (resolve : Resolver) : List Operation → Session → List (Except ActionFault Answer × Session)
  | [], _ => []
  | operation :: rest, s =>
    exec (operation.perform resolve) s :: trace resolve rest (exec (operation.perform resolve) s).2

end Operation

namespace Catalog

/-- How often calls ask for a type. -/
def timesAsked (typeName : Text) (calls : List Call) : Nat :=
  calls.count (.lookUpType (path typeName))

/-- Calls like others, but with fewer look-ups: a type that the archive has is asked for once if the others
ask for it at all, one that it lacks is asked for as often as in the others. -/
structure Sparing (types : List (Text × String)) (asked queried : List Call) : Prop where
  others : asked.filter (!·.isLookUp) = queried.filter (!·.isLookUp)
  present : ∀ typeName, types.lookup typeName ≠ none →
    timesAsked typeName asked = min 1 (timesAsked typeName queried)
  missing : ∀ typeName, types.lookup typeName = none → timesAsked typeName asked = timesAsked typeName queried

/-- An operation with a catalog that remembers, and the same one with a catalog that asks each time, in two
series that began with `s`. -/
structure Alike (s : Session) (remembering asking : Except ActionFault Operation.Answer × Session) : Prop where
  answer : remembering.1 = asking.1
  printed : remembering.2.printed = asking.2.printed
  functions : remembering.2.functions = asking.2.functions
  calls : ∃ asked queried, remembering.2.calls = s.calls ++ asked ∧ asking.2.calls = s.calls ++ queried ∧
    Sparing s.types asked queried

/-! ## Counting look-ups -/

section Counting

variable {types : List (Text × String)} {asked queried : List Call} {call : Call} {typeName other : Text}

theorem path_injective : Function.Injective path :=
  fun _ _ h => Text.append_right_inj.1 h

theorem timesAsked_append_self (typeName : Text) (calls : List Call) :
    timesAsked typeName (calls ++ [.lookUpType (path typeName)]) = timesAsked typeName calls + 1 := by
  rw [timesAsked, List.count_append, List.count_singleton_self, timesAsked]

theorem timesAsked_append_of_ne (h : typeName ≠ other) (calls : List Call) :
    timesAsked typeName (calls ++ [.lookUpType (path other)]) = timesAsked typeName calls := by
  have hne : Call.lookUpType (path typeName) ≠ .lookUpType (path other) := by
    rw [ne_eq, Call.lookUpType.injEq]
    exact fun heq => h (path_injective heq)
  rw [timesAsked, List.count_append, List.count_singleton, if_neg (by simpa using hne.symm), timesAsked,
    Nat.add_zero]

theorem timesAsked_append_of_not_isLookUp (h : call.isLookUp = false) (calls : List Call) :
    timesAsked typeName (calls ++ [call]) = timesAsked typeName calls := by
  have hne : call ≠ .lookUpType (path typeName) := by
    rintro rfl
    cases h
  rw [timesAsked, List.count_append, List.count_singleton, if_neg (by simpa using hne), timesAsked, Nat.add_zero]

end Counting

/-! ## The two catalogs side by side -/

/-- The first session has a catalog that remembers, the second one has a catalog that asks each time; they
began with the calls `before`. What is remembered is what the archive has and has been asked for. -/
structure Remembers (types : List (Text × String)) (before : List Call) (s t : Session) : Prop where
  types_left : s.types = types
  types_right : t.types = types
  printed : s.printed = t.printed
  functions : s.functions = t.functions
  coherent : ∀ typeName descriptor, s.known.lookup typeName = some descriptor → types.lookup typeName = some descriptor
  calls : ∃ asked queried, s.calls = before ++ asked ∧ t.calls = before ++ queried ∧ Sparing types asked queried ∧
    ∀ typeName, types.lookup typeName ≠ none → (s.known.lookup typeName ≠ none ↔ 0 < timesAsked typeName queried)

section SideBySide

variable {types : List (Text × String)} {before : List Call} {s t : Session} {typeName : Text} {descriptor : String}

/-- A call that is no look-up is recorded in both. -/
theorem Remembers.record (h : Remembers types before s t) {call : Call} (hcall : call.isLookUp = false) :
    Remembers types before { s with calls := s.calls ++ [call] } { t with calls := t.calls ++ [call] } := by
  obtain ⟨asked, queried, hs, ht, sparing, hknown⟩ := h.calls
  refine { h with calls := ⟨asked ++ [call], queried ++ [call], ?_, ?_, ⟨?_, fun n hn => ?_, fun n hn => ?_⟩,
    fun n hn => ?_⟩ }
  · rw [hs, List.append_assoc]
  · rw [ht, List.append_assoc]
  · rw [List.filter_append, List.filter_append, sparing.others]
  · rw [timesAsked_append_of_not_isLookUp hcall, timesAsked_append_of_not_isLookUp hcall, sparing.present n hn]
  · rw [timesAsked_append_of_not_isLookUp hcall, timesAsked_append_of_not_isLookUp hcall, sparing.missing n hn]
  · rw [timesAsked_append_of_not_isLookUp hcall]
    exact hknown n hn

/-- A type that is remembered is asked for by the second catalog only. -/
theorem Remembers.recall (h : Remembers types before s t) (hk : s.known.lookup typeName = some descriptor) :
    Remembers types before s { t with calls := t.calls ++ [.lookUpType (path typeName)] } := by
  obtain ⟨asked, queried, hs, ht, sparing, hknown⟩ := h.calls
  have hpresent : types.lookup typeName ≠ none := by simp [h.coherent _ _ hk]
  have hpos := (hknown typeName hpresent).1 (by simp [hk])
  refine { h with calls := ⟨asked, queried ++ [.lookUpType (path typeName)], hs, ?_,
    ⟨?_, fun n hn => ?_, fun n hn => ?_⟩, fun n hn => ?_⟩ }
  · rw [ht, List.append_assoc]
  · rw [List.filter_append, sparing.others]
    exact (List.append_nil _).symm
  · by_cases heq : n = typeName
    · subst heq
      rw [timesAsked_append_self, sparing.present n hn]
      omega
    · rw [timesAsked_append_of_ne heq, sparing.present n hn]
  · have hne : n ≠ typeName := fun heq => hpresent (by rw [← heq, hn])
    rw [timesAsked_append_of_ne hne, sparing.missing n hn]
  · by_cases heq : n = typeName
    · subst heq
      rw [timesAsked_append_self]
      simp [hk]
    · rw [timesAsked_append_of_ne heq]
      exact hknown n hn

/-- A type that is not remembered is asked for by both catalogs. If the archive has it, the first one
remembers it from then on. -/
theorem Remembers.ask (h : Remembers types before s t) (hk : s.known.lookup typeName = none)
    (known : List (Text × String))
    (hknown' : known = match types.lookup typeName with
      | some descriptor => Keyed.insert typeName descriptor s.known
      | none => s.known) :
    Remembers types before { s with calls := s.calls ++ [.lookUpType (path typeName)], known }
      { t with calls := t.calls ++ [.lookUpType (path typeName)] } := by
  obtain ⟨asked, queried, hs, ht, sparing, hknown⟩ := h.calls
  have hself : ∀ descriptor, types.lookup typeName = some descriptor → known.lookup typeName = some descriptor := by
    intro descriptor hd
    rw [hknown', hd]
    exact Keyed.lookup_insert_self ..
  have hother : ∀ n, n ≠ typeName → known.lookup n = s.known.lookup n := by
    intro n hn
    rw [hknown']
    cases types.lookup typeName with
    | none => rfl
    | some descriptor => exact Keyed.lookup_insert_of_ne hn ..
  refine
    { h with
      coherent := fun n d hd => ?_
      calls := ⟨asked ++ [.lookUpType (path typeName)], queried ++ [.lookUpType (path typeName)], ?_, ?_,
        ⟨?_, fun n hn => ?_, fun n hn => ?_⟩, fun n hn => ?_⟩ }
  · by_cases heq : n = typeName
    · subst heq
      cases htypes : types.lookup n with
      | none =>
        rw [hknown', htypes] at hd
        cases hk.symm.trans hd
      | some descriptor => rw [← hd, hself descriptor htypes]
    · exact h.coherent n d (hother n heq ▸ hd)
  · rw [hs, List.append_assoc]
  · rw [ht, List.append_assoc]
  · rw [List.filter_append, List.filter_append, sparing.others]
  · by_cases heq : n = typeName
    · -- It has not been asked for before, or it would be remembered.
      subst heq
      have hzero : timesAsked n queried = 0 := by
        have := (hknown n hn).not.1 (by simp [hk])
        omega
      rw [timesAsked_append_self, timesAsked_append_self, sparing.present n hn, hzero]
      rfl
    · rw [timesAsked_append_of_ne heq, timesAsked_append_of_ne heq, sparing.present n hn]
  · by_cases heq : n = typeName
    · subst heq
      rw [timesAsked_append_self, timesAsked_append_self, sparing.missing n hn]
    · rw [timesAsked_append_of_ne heq, timesAsked_append_of_ne heq, sparing.missing n hn]
  · by_cases heq : n = typeName
    · subst heq
      obtain ⟨descriptor, hd⟩ := Option.ne_none_iff_exists'.1 hn
      rw [timesAsked_append_self, hself descriptor hd]
      simp
    · rw [timesAsked_append_of_ne heq]
      show known.lookup n ≠ none ↔ _
      rw [hother n heq]
      exact hknown n hn

/-- The catalog that remembers answers as the one that asks each time. -/
theorem resolve_follows (typeName : Text) :
    Follows (Remembers types before) Session.SameTypes (fun _ _ _ => False) (resolve typeName) (query typeName) := by
  refine ⟨query_moves Session.SameTypes.steps.acts.looksUp typeName, fun {s t} h => ?_⟩
  have hs := exec_query typeName s
  rw [show s.types.lookup typeName = types.lookup typeName by rw [h.types_left]] at hs
  rw [resolve, exec_bind_ok (show exec get s = (.ok s, s) from rfl), exec_query,
    show t.types.lookup typeName = types.lookup typeName by rw [h.types_right]]
  cases hk : s.known.lookup typeName with
  | some descriptor =>
    rw [h.coherent _ _ hk]
    exact .together (h.recall hk)
  | none =>
    dsimp only
    cases htypes : types.lookup typeName with
    | some descriptor =>
      rw [htypes] at hs
      rw [exec_bind_ok hs]
      exact .together (h.ask hk _ (by rw [htypes]))
    | none =>
      rw [htypes] at hs
      rw [exec_bind_error hs]
      exact .together (h.ask hk _ (by rw [htypes]))

theorem change_follows {call : Call} {i : Nat} {setter : Setter} {edit : Function → Function}
    (hcall : call.change? = some (i, setter)) :
    Follows (Remembers types before) Session.SameTypes (fun _ _ _ => False) (Action.change call setter i edit)
      (Action.change call setter i edit) := by
  have hkind : call.isLookUp = false := by cases call <;> first | rfl | cases hcall
  refine Follows.bind (Follows.modify (fun _ => rfl) fun h => h.record hkind) fun _ => ?_
  refine Follows.get_bind (fun t => ?_) fun {s t} h => ?_
  · cases t.functions[i]?.bind (·.refusalOf setter) with
    | some message => exact Moves.throw _
    | none => exact Moves.modify fun _ => rfl
  · rw [← h.functions]
    cases s.functions[i]?.bind (·.refusalOf setter) with
    | some message => exact .together h
    | none => exact .together { h with functions := congrArg (·.modify i edit) h.functions }

theorem comparison (types : List (Text × String)) (before : List Call) :
    Comparison (Remembers types before) Session.SameTypes (fun _ _ _ => False) resolve query where
  looks h := by rw [h.functions]
  lines lines := Follows.modify (fun _ => rfl) fun h => { h with printed := congrArg (· ++ lines) h.printed }
  listing := Follows.modify (fun _ => rfl) fun h => h.record rfl
  resolve := resolve_follows
  change hcall _ _ := change_follows hcall
  refused := False.elim

end SideBySide

/-! ## Whole series -/

theorem perform_follows (types : List (Text × String)) (before : List Call) (operation : Operation) :
    Follows (Remembers types before) Session.SameTypes (fun _ _ _ => False) (operation.perform resolve)
      (operation.perform query) := by
  have compare := comparison types before
  cases operation with
  | find typeName => exact Follows.bind (compare.resolve typeName) fun _ => Follows.pure _
  | parameters m => exact Follows.bind (Signature.parameters_follows compare m) fun _ => Follows.pure _
  | assign function m => exact Follows.bind (Signature.assign_follows compare function m) fun _ => Follows.pure _
  | assignOnLoad function =>
    exact Follows.bind (Signature.assignOnLoad_follows compare function) fun _ => Follows.pure _
  | pass policy methods => exact Follows.bind (Pass.runWith_follows compare policy methods) fun _ => Follows.pure _
  | edit change =>
    refine Follows.bind (Follows.modify (fun _ => rfl) fun h => ?_) fun _ => Follows.pure _
    exact { h with functions := congrArg change h.functions }

theorem trace_alike {base s t : Session} (h : Remembers base.types base.calls s t) (operations : List Operation) :
    List.Forall₂ (Alike base) (Operation.trace resolve operations s) (Operation.trace query operations t) := by
  induction operations generalizing s t with
  | nil => exact .nil
  | cons operation rest ih =>
    obtain ⟨hanswer, hnext⟩ := (perform_follows _ _ operation).exec_eq (fun _ _ _ => id) h
    obtain ⟨asked, queried, hs, ht, sparing, -⟩ := hnext.calls
    exact .cons ⟨hanswer, hnext.printed, hnext.functions, asked, queried, hs, ht, sparing⟩ (ih hnext)

/-- What a catalog remembers shows in no answer, no fault, no printed line and no function of any operation
in a series, but only in the look-ups: of these it leaves out the repetitions for types that the archive
has. -/
theorem memory_unseen {s : Session} (fresh : s.known = []) (operations : List Operation) :
    List.Forall₂ (Alike s) (Operation.trace resolve operations s) (Operation.trace query operations s) := by
  refine trace_alike ⟨rfl, rfl, rfl, rfl, fun n d hd => ?_, [], [], ?_, ?_, ⟨rfl, fun _ _ => rfl, fun _ _ => rfl⟩,
    fun n _ => ?_⟩ operations
  · rw [fresh] at hd
    cases hd
  · exact (List.append_nil _).symm
  · exact (List.append_nil _).symm
  · rw [fresh]
    exact iff_of_false (fun h => h rfl) (Nat.lt_irrefl 0)

/-- A library with a function that runs on loading, of which the host refuses to change the parameters, and a native
function. -/
def refusedLoad : Session :=
  { functions :=
      [⟨"JNI_OnLoad", none, [⟨"p0", "undefined"⟩], "undefined", some ⟨.parameterType, "no"⟩⟩,
        ⟨"Java_A_f", none, [], "undefined", none⟩]
    types := [("JNIEnv *", "E"), ("JavaVM *", "V"), ("jint", "I"), ("jobject", "O")]
    known := [], calls := [], printed := [] }

/-- Two passes, one that the host stops and, when the refusal has been taken back, one that it lets be, with questions
for a type that is missing before the first and behind the second. -/
def refusedThenFreed : List Operation :=
  [.find "jlong", .pass .abort [⟨"A.f", [], "jint", false⟩],
    .edit fun fs => fs.map fun f => { f with refusal := none },
    .pass .skip [⟨"A.f", ["jint"], "jlong", false⟩], .find "jlong"]

/-- Both resolvers look up the type that is missing whenever it is asked for. The type that is there is looked up
once, and three times by the one without a memory. -/
theorem refusedLoad_answered_alike : refusedLoad.known = [] ∧
    List.Forall₂ (Alike refusedLoad) (Operation.trace resolve refusedThenFreed refusedLoad)
      (Operation.trace query refusedThenFreed refusedLoad) ∧
    (Operation.trace resolve refusedThenFreed refusedLoad).map
        (fun x => (timesAsked "jint" x.2.calls, timesAsked "jlong" x.2.calls)) =
      [(0, 1), (1, 1), (1, 1), (1, 2), (1, 3)] ∧
    (Operation.trace query refusedThenFreed refusedLoad).map
        (fun x => (timesAsked "jint" x.2.calls, timesAsked "jlong" x.2.calls)) =
      [(0, 1), (1, 1), (1, 1), (3, 2), (3, 3)] :=
  ⟨rfl, memory_unseen rfl refusedThenFreed, by decide +kernel, by decide +kernel⟩

end Catalog

end JniSignatures
