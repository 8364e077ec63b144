import Mathlib
/-!
# Running actions that may fail

An action on a state that may fail is run by `exec`, which gives how it ends and the state after it. What
was done before a failure stays done. The lemmas follow a run through `>>=` and `tryCatch`: forwards when
it is known how the first part ends, and backwards from a whole run that returned. `Moves` says what every
run does to the state, however it ends: what each step does, again and again. A computation without a
state is a result, and is taken apart by what its parts result in.
-/

namespace JniSignatures

/-! ## Results -/

section Result

variable {ε ε' α β : Type} {x : Except ε α}

theorem bind_eq_ok_iff {next : α → Except ε β} {b : β} : x >>= next = .ok b ↔ ∃ a, x = .ok a ∧ next a = .ok b := by
  cases x with
  | error e => simp [bind, Except.bind]
  | ok a => simp [bind, Except.bind]

theorem bind_eq_error_iff {next : α → Except ε β} {e : ε} :
    x >>= next = .error e ↔ x = .error e ∨ ∃ a, x = .ok a ∧ next a = .error e := by
  cases x with
  | error e => simp [bind, Except.bind]
  | ok a => simp [bind, Except.bind]

theorem mapError_eq_ok_iff {f : ε → ε'} {y : α} : x.mapError f = .ok y ↔ x = .ok y := by
  cases x with
  | error e => simp [Except.mapError]
  | ok a => simp [Except.mapError]

end Result

/-! ## Runs -/

/-- Runs an action on a state: how it ends, and the state after it. -/
def exec {ε σ α : Type} (action : ExceptT ε (StateM σ) α) (s : σ) : Except ε α × σ :=
  action.run.run s

section Exec

variable {ε σ α β : Type} {s t : σ} {action : ExceptT ε (StateM σ) α}

theorem exec_bind_ok {next : α → ExceptT ε (StateM σ) β} {x : α} (h : exec action s = (.ok x, t)) :
    exec (action >>= next) s = exec (next x) t := by
  have h' : action s = (Except.ok x, t) := h
  show (match action s with | (r, t) => ExceptT.bindCont next r t) = _
  rw [h']; rfl

theorem exec_bind_error {next : α → ExceptT ε (StateM σ) β} {e : ε} (h : exec action s = (.error e, t)) :
    exec (action >>= next) s = (.error e, t) := by
  have h' : action s = (Except.error e, t) := h
  show (match action s with | (r, t) => ExceptT.bindCont next r t) = _
  rw [h']; rfl

/-- If the whole returns, its first part returned, and the rest ran from where that stopped. -/
theorem exec_bind_eq_ok {next : α → ExceptT ε (StateM σ) β} {y : β}
    (h : exec (action >>= next) s = (.ok y, t)) :
    ∃ x between, exec action s = (.ok x, between) ∧ exec (next x) between = (.ok y, t) := by
  cases ha : exec action s with
  | mk result between =>
    cases result with
    | ok x => exact ⟨x, between, rfl, exec_bind_ok ha ▸ h⟩
    | error e =>
      rw [exec_bind_error ha] at h
      cases h

/-- A run fails in its first part, or that returns and the rest goes on from there. -/
theorem exec_bind_cases {next : α → ExceptT ε (StateM σ) β} {r : Except ε β}
    (h : exec (action >>= next) s = (r, t)) :
    (∃ e, exec action s = (.error e, t) ∧ r = .error e) ∨
      ∃ x between, exec action s = (.ok x, between) ∧ exec (next x) between = (r, t) := by
  cases ha : exec action s with
  | mk result between =>
    cases result with
    | ok x => exact .inr ⟨x, between, rfl, exec_bind_ok ha ▸ h⟩
    | error e =>
      rw [exec_bind_error ha] at h
      cases h
      exact .inl ⟨e, rfl, rfl⟩

/-- A run that returned returns alike with another rest, if that returns alike from wherever it starts. -/
theorem exec_bind_congr_ok {next next' : α → ExceptT ε (StateM σ) β} {y : β}
    (h : exec (action >>= next) s = (.ok y, t))
    (hn : ∀ x between, exec (next x) between = (.ok y, t) → exec (next' x) between = (.ok y, t)) :
    exec (action >>= next') s = (.ok y, t) := by
  obtain ⟨x, between, ha, hx⟩ := exec_bind_eq_ok h
  rw [exec_bind_ok ha]
  exact hn x between hx

theorem exec_tryCatch_ok {handler : ε → ExceptT ε (StateM σ) α} {x : α} (h : exec action s = (.ok x, t)) :
    exec (tryCatch action handler) s = (.ok x, t) := by
  have h' : action s = (Except.ok x, t) := h
  simp [exec, tryCatch, tryCatchThe, MonadExceptOf.tryCatch, ExceptT.tryCatch, ExceptT.mk, ExceptT.run,
    StateT.run, bind, StateT.bind, pure, StateT.pure, h']

theorem exec_tryCatch_error {handler : ε → ExceptT ε (StateM σ) α} {e : ε}
    (h : exec action s = (.error e, t)) : exec (tryCatch action handler) s = exec (handler e) t := by
  have h' : action s = (Except.error e, t) := h
  simp [exec, tryCatch, tryCatchThe, MonadExceptOf.tryCatch, ExceptT.tryCatch, ExceptT.mk, ExceptT.run,
    StateT.run, bind, StateT.bind, h']

theorem exec_adapt {ε' : Type} (f : ε → ε') (action : ExceptT ε (StateM σ) α) (s : σ) :
    exec (action.adapt f) s = ((exec action s).1.mapError f, (exec action s).2) :=
  rfl

end Exec

/-! ## Along a relation -/

/-- Every run of the action takes the state along a relation. -/
def Moves {ε σ α : Type} (R : σ → σ → Prop) (action : ExceptT ε (StateM σ) α) : Prop :=
  ∀ s, R s (exec action s).2

section Moves

variable {ε σ α β : Type} {R : σ → σ → Prop} {action : ExceptT ε (StateM σ) α}

theorem Moves.of_exec (h : Moves R action) {s t : σ} {r : Except ε α} (he : exec action s = (r, t)) : R s t := by
  have hs := h s
  rwa [he] at hs

theorem Moves.modify {edit : σ → σ} (h : ∀ s, R s (edit s)) :
    Moves R (modify edit : ExceptT ε (StateM σ) Unit) :=
  h

theorem Moves.adapt {ε' : Type} (h : Moves R action) (f : ε → ε') : Moves R (action.adapt f) :=
  h

/-- What follows a look at the state may depend on it. -/
theorem Moves.get_bind {next : σ → ExceptT ε (StateM σ) β} (h : ∀ s, R s (exec (next s) s).2) :
    Moves R (get >>= next) := by
  intro s
  rw [exec_bind_ok (show exec get s = (.ok s, s) from rfl)]
  exact h s

variable [IsPreorder σ R]

theorem Moves.pure (x : α) : Moves R (pure x : ExceptT ε (StateM σ) α) :=
  fun s => refl s

theorem Moves.throw (e : ε) : Moves R (throw e : ExceptT ε (StateM σ) α) :=
  fun s => refl s

theorem Moves.bind {next : α → ExceptT ε (StateM σ) β} (h : Moves R action) (hn : ∀ x, Moves R (next x)) :
    Moves R (action >>= next) := by
  intro s
  cases ha : exec action s with
  | mk result t =>
    have hst := h.of_exec ha
    cases result with
    | ok x =>
      rw [exec_bind_ok ha]
      exact trans_of R hst (hn x t)
    | error e =>
      rw [exec_bind_error ha]
      exact hst

theorem Moves.tryCatch {handler : ε → ExceptT ε (StateM σ) α} (h : Moves R action)
    (hn : ∀ e, Moves R (handler e)) : Moves R (tryCatch action handler) := by
  intro s
  cases ha : exec action s with
  | mk result t =>
    have hst := h.of_exec ha
    cases result with
    | ok x =>
      rw [exec_tryCatch_ok ha]
      exact hst
    | error e =>
      rw [exec_tryCatch_error ha]
      exact trans_of R hst (hn e t)

end Moves

end JniSignatures
