import Mathlib
import JniSignatures.Host.Catalog
import JniSignatures.Proofs.Running
/-!
# How actions end

A pass is judged by less than the whole session: by the functions, and by what the catalog says of each
type, which a look-up never changes although it remembers what it has found. `Action.Ends` is that
judgement, with one rule for each way to build an action; a proof about an action applies the rules along
the action's own text.
-/

namespace JniSignatures

/-- What a catalog says of types: the descriptor of each one that it has. -/
abbrev TypeMap := Text → Option String

/-- What the catalog of a session says: what it knows already, and else what the archive has. -/
def Session.typeOf (s : Session) : TypeMap :=
  fun typeName => (s.known.lookup typeName).or (s.types.lookup typeName)

namespace Action

/-- From every session whose catalog says `types` and whose functions are `fs`, the action ends with
`r`, leaves the functions `gs`, and the catalog says what it said before. -/
def Ends {α : Type} (types : TypeMap) (fs : List Function) (action : Action α)
    (r : Except ActionFault α) (gs : List Function) : Prop :=
  ∀ s : Session, s.typeOf = types → s.functions = fs →
    ∃ t, exec action s = (r, t) ∧ t.typeOf = types ∧ t.functions = gs

/-! ## The rules -/

section Rules
variable {α β : Type} {types : TypeMap} {fs gs hs : List Function}

/-- A session that the judgement covers ends as it says. -/
theorem Ends.exec_eq {action : Action α} {r r' : Except ActionFault α} {s t : Session}
    (h : Ends s.typeOf s.functions action r gs) (he : exec action s = (r', t)) :
    r' = r ∧ t.typeOf = s.typeOf ∧ t.functions = gs := by
  obtain ⟨u, hu, ht, hf⟩ := h s rfl rfl
  rw [hu] at he
  cases he
  exact ⟨rfl, ht, hf⟩

theorem Ends.pure (x : α) : Ends types fs (pure x) (.ok x) fs :=
  fun s ht hf => ⟨s, rfl, ht, hf⟩

theorem Ends.throw (e : ActionFault) : Ends types fs (throw e : Action α) (.error e) fs :=
  fun s ht hf => ⟨s, rfl, ht, hf⟩

theorem Ends.bind {action : Action α} {next : α → Action β} {x : α} {r : Except ActionFault β}
    (h : Ends types fs action (.ok x) gs) (hn : Ends types gs (next x) r hs) :
    Ends types fs (action >>= next) r hs := by
  intro s ht hf
  obtain ⟨t, he, ht', hf'⟩ := h s ht hf
  rw [exec_bind_ok he]
  exact hn t ht' hf'

theorem Ends.bind_error {action : Action α} {next : α → Action β} {e : ActionFault}
    (h : Ends types fs action (.error e) gs) : Ends types fs (action >>= next) (.error e) gs := by
  intro s ht hf
  obtain ⟨t, he, ht', hf'⟩ := h s ht hf
  exact ⟨t, exec_bind_error he, ht', hf'⟩

theorem Ends.tryCatch {action : Action α} {handler : ActionFault → Action α} {x : α}
    (h : Ends types fs action (.ok x) gs) : Ends types fs (tryCatch action handler) (.ok x) gs := by
  intro s ht hf
  obtain ⟨t, he, ht', hf'⟩ := h s ht hf
  exact ⟨t, exec_tryCatch_ok he, ht', hf'⟩

theorem Ends.tryCatch_error {action : Action α} {handler : ActionFault → Action α} {e : ActionFault}
    {r : Except ActionFault α} (h : Ends types fs action (.error e) gs)
    (hn : Ends types gs (handler e) r hs) : Ends types fs (MonadExcept.tryCatch action handler) r hs := by
  intro s ht hf
  obtain ⟨t, he, ht', hf'⟩ := h s ht hf
  rw [show exec (MonadExcept.tryCatch action handler) s = exec (handler e) t from exec_tryCatch_error he]
  exact hn t ht' hf'

/-- Reading the session: what follows is judged for each session that is covered. -/
theorem Ends.get_bind {next : Session → Action β} {r : Except ActionFault β}
    (h : ∀ s : Session, s.functions = fs → Ends types fs (next s) r gs) :
    Ends types fs (get >>= next) r gs := by
  intro s ht hf
  rw [exec_bind_ok (show exec get s = (.ok s, s) from rfl)]
  exact h s hf s ht hf

/-- A change of the session outside its functions and its catalog. -/
theorem Ends.modify {edit : Session → Session} (ht : ∀ s, (edit s).typeOf = s.typeOf)
    (hf : ∀ s, (edit s).functions = s.functions) : Ends types fs (modify edit : Action Unit) (.ok ()) fs :=
  fun s h h' => ⟨edit s, rfl, (ht s).trans h, (hf s).trans h'⟩

theorem Ends.record (call : Call) : Ends types fs (Action.record call) (.ok ()) fs :=
  Ends.modify (fun _ => rfl) (fun _ => rfl)

theorem Ends.print (line : Text) : Ends types fs (Action.print line) (.ok ()) fs :=
  Ends.modify (fun _ => rfl) (fun _ => rfl)

theorem Ends.printAll (lines : List Text) : Ends types fs (Action.printAll lines) (.ok ()) fs :=
  Ends.modify (fun _ => rfl) (fun _ => rfl)

theorem Ends.functionName {i : Nat} {f : Function} (h : fs[i]? = some f) :
    Ends types fs (Action.functionName i) (.ok f.name) fs := by
  refine Ends.get_bind fun s hs => ?_
  rw [hs, h]
  exact Ends.pure f.name

end Rules

/-! ## Changing a function -/

section Change
variable {types : TypeMap} {fs : List Function} {i : Nat} {f : Function} {call : Call} {setter : Setter}
  {edit : Function → Function}

theorem modify_eq_set (h : fs[i]? = some f) : fs.modify i edit = fs.set i (edit f) := by
  refine List.ext_getElem? fun j => ?_
  rw [List.getElem?_modify, List.getElem?_set]
  split
  · subst j
    rw [if_pos (List.getElem?_eq_some_iff.1 h).1, h]
    rfl
  · simp

theorem Ends.change (h : fs[i]? = some f) (hr : f.refusalOf setter = none) :
    Ends types fs (Action.change call setter i edit) (.ok ()) (fs.set i (edit f)) := by
  refine Ends.bind (Ends.record call) (Ends.get_bind fun s hs => ?_)
  rw [hs, h, Option.bind_some, hr]
  rintro t ht rfl
  exact ⟨_, rfl, ht, modify_eq_set h⟩

/-- A change to a function that has been changed before. -/
theorem Ends.change_again {g : Function} (hi : i < fs.length) (hr : g.refusalOf setter = none) :
    Ends types (fs.set i g) (Action.change call setter i edit) (.ok ()) (fs.set i (edit g)) := by
  have h : Ends types (fs.set i g) (Action.change call setter i edit) (.ok ()) ((fs.set i g).set i (edit g)) :=
    Ends.change (List.getElem?_set_self hi) hr
  rwa [List.set_set] at h

theorem Ends.change_refused {message : String} (h : fs[i]? = some f)
    (hr : f.refusalOf setter = some message) :
    Ends types fs (Action.change call setter i edit) (.error (.refused message)) fs := by
  refine Ends.bind (Ends.record call) (Ends.get_bind fun s hs => ?_)
  rw [hs, h, Option.bind_some, hr]
  exact Ends.throw _

end Change

end Action

/-! ## Looking up a type -/

namespace Catalog

open JniSignatures.Action (Ends record)

variable {types : TypeMap} {fs : List Function} {typeName : Text}

/-- Remembering a type that the catalog has does not change what it says. -/
theorem typeOf_insert {s : Session} {descriptor : String} (h : s.typeOf typeName = some descriptor) :
    ({ s with known := Keyed.insert typeName descriptor s.known } : Session).typeOf = s.typeOf := by
  funext other
  by_cases ho : other = typeName
  · subst ho
    rw [h]
    simp [Session.typeOf]
  · simp [Session.typeOf, Keyed.lookup_insert_of_ne ho]

/-- A question to the archive is recorded, whatever the archive has. -/
theorem exec_query (typeName : Text) (s : Session) :
    exec (query typeName) s =
      (match s.types.lookup typeName with
        | some descriptor => .ok descriptor
        | none => .error (.typeMissing typeName (path typeName)),
      { s with calls := s.calls ++ [.lookUpType (path typeName)] }) := by
  let u : Session := { s with calls := s.calls ++ [.lookUpType (path typeName)] }
  rw [query, exec_bind_ok (show exec (record (.lookUpType (path typeName))) s = (.ok (), u) from rfl),
    exec_bind_ok (show exec get u = (.ok u, u) from rfl), show u.types = s.types from rfl]
  cases s.types.lookup typeName <;> rfl

theorem resolve_ends {descriptor : String} (h : types typeName = some descriptor) :
    Ends types fs (resolve typeName) (.ok descriptor) fs := by
  rintro s rfl rfl
  cases hk : s.known.lookup typeName with
  | some d =>
    have hd : d = descriptor := by simpa [Session.typeOf, hk] using h
    refine ⟨s, ?_, rfl, rfl⟩
    simp only [resolve]
    rw [exec_bind_ok (show exec get s = (.ok s, s) from rfl), hk, hd]
    rfl
  | none =>
    have ht : s.types.lookup typeName = some descriptor := by simpa [Session.typeOf, hk] using h
    have hq := exec_query typeName s
    rw [ht] at hq
    refine ⟨{ s with
      calls := s.calls ++ [.lookUpType (path typeName)]
      known := Keyed.insert typeName descriptor s.known }, ?_, typeOf_insert h, rfl⟩
    simp only [resolve]
    rw [exec_bind_ok (show exec get s = (.ok s, s) from rfl), hk]
    simp only
    rw [exec_bind_ok hq]
    rfl

theorem resolve_missing (h : types typeName = none) :
    Ends types fs (resolve typeName) (.error (.typeMissing typeName (path typeName))) fs := by
  rintro s rfl rfl
  obtain ⟨hk, ht⟩ : s.known.lookup typeName = none ∧ s.types.lookup typeName = none := by
    simpa [Session.typeOf, Option.or_eq_none_iff] using h
  have hq := exec_query typeName s
  rw [ht] at hq
  refine ⟨{ s with calls := s.calls ++ [.lookUpType (path typeName)] }, ?_, rfl, rfl⟩
  simp only [resolve]
  rw [exec_bind_ok (show exec get s = (.ok s, s) from rfl), hk]
  exact exec_bind_error hq

end Catalog

end JniSignatures
