import Mathlib
import JniSignatures.Proofs.Json.LongInteger
/-!
# Where a document is nested too deep

While the reader takes tokens, the containers that are open for it are those that the tokens have opened and not
closed (`openContainers_of_takeAll`). So it refuses a text for its nesting exactly if the text comes to the opening
of a container, in a place where a value may start, with as many containers open as may be (`ofText_eq_tooDeep_iff`).
-/

namespace JniSignatures.Json

section Counting

variable {s s' : State} {stack : List Frame} {value : Json} {depth offset : Nat} {token : Token}
  {tokens : List (Nat × Token)}

/-- The container that a token opens. -/
def Token.opens? : Token → Option Container
  | .openBracket => some .array
  | .openBrace => some .object
  | _ => none

/-- Whether a token closes a container. -/
def Token.closes : Token → Bool
  | .closeBracket | .closeBrace => true
  | _ => false

/-- How many of the tokens open a container. -/
def openings (tokens : List (Nat × Token)) : Nat :=
  tokens.countP (·.2.opens?.isSome)

/-- How many of the tokens close one. -/
def closings (tokens : List (Nat × Token)) : Nat :=
  tokens.countP (·.2.closes)

/-- How many containers are open between two tokens. -/
def State.openContainers (s : State) : Nat :=
  match s.expected with
  | .value | .finish _ => s.stack.length
  | _ => s.stack.length + 1

theorem openContainers_deliver : (State.deliver value stack).openContainers = stack.length := by
  match stack with
  | [] => rfl
  | .array _ :: _ => rfl
  | .object _ _ :: _ => rfl

theorem openContainers_begin (h : State.begin depth stack offset token = .ok s') :
    s'.openContainers = stack.length + openings [(offset, token)] ∧ closings [(offset, token)] = 0 := by
  cases token with
  | openBracket | openBrace =>
    obtain ⟨-, h⟩ := (ite_eq_iff.1 h).resolve_right (by rintro ⟨-, h⟩; cases h)
    cases h
    exact ⟨rfl, rfl⟩
  | null | bool | int | float | string =>
    cases h
    exact ⟨openContainers_deliver, rfl⟩
  | _ => cases h

theorem openContainers_readKey {fields : List (Text × Json)} (h : State.readKey stack fields offset token = .ok s') :
    s'.openContainers = stack.length + 1 ∧ openings [(offset, token)] = 0 ∧ closings [(offset, token)] = 0 := by
  cases token with
  | string key =>
    cases h
    exact ⟨rfl, rfl, rfl⟩
  | _ => cases h

/-- A token changes the number of open containers by what it opens or closes. -/
theorem openContainers_step (h : s.step depth offset token = .ok s') :
    s'.openContainers + closings [(offset, token)] = s.openContainers + openings [(offset, token)] := by
  obtain ⟨stack, expected⟩ := s
  cases expected with
  | value =>
    obtain ⟨hopen, hclose⟩ := openContainers_begin h
    rw [hopen, hclose]
    rfl
  | firstItem =>
    by_cases hend : token = .closeBracket
    · subst hend
      cases h
      rw [openContainers_deliver]
      rfl
    · have hbegin : State.begin depth (.array [] :: stack) offset token = .ok s' := by
        cases token <;> first | exact h | exact absurd rfl hend
      obtain ⟨hopen, hclose⟩ := openContainers_begin hbegin
      rw [hopen, hclose]
      rfl
  | key fields =>
    obtain ⟨hopen, hopening, hclosing⟩ := openContainers_readKey h
    rw [hopen, hopening, hclosing]
    rfl
  | firstKey =>
    by_cases hend : token = .closeBrace
    · subst hend
      cases h
      rw [openContainers_deliver]
      rfl
    · have hkey : State.readKey stack [] offset token = .ok s' := by
        cases token <;> first | exact h | exact absurd rfl hend
      obtain ⟨hopen, hopening, hclosing⟩ := openContainers_readKey hkey
      rw [hopen, hopening, hclosing]
      rfl
  | colon fields key =>
    cases token with
    | colon =>
      cases h
      rfl
    | _ => cases h
  | more items =>
    cases token with
    | comma =>
      cases h
      rfl
    | closeBracket =>
      cases h
      rw [openContainers_deliver]
      rfl
    | _ => cases h
  | moreFields fields =>
    cases token with
    | comma =>
      cases h
      rfl
    | closeBrace =>
      cases h
      rw [openContainers_deliver]
      rfl
    | _ => cases h
  | finish document => cases h

/-- Those containers are open that have been opened and not closed. -/
theorem openContainers_of_takeAll (h : s.takeAll depth tokens = .ok s') :
    s'.openContainers + closings tokens = s.openContainers + openings tokens := by
  induction tokens generalizing s with
  | nil =>
    cases h
    rfl
  | cons head rest ih =>
    obtain ⟨offset, token⟩ := head
    rw [State.takeAll_cons] at h
    obtain ⟨next, hnext, h⟩ := bind_eq_ok_iff.1 h
    have hstep := openContainers_step hnext
    have hrest := ih h
    have hclosings : closings ([(offset, token)] ++ rest) = closings [(offset, token)] + closings rest :=
      List.countP_append
    have hopenings : openings ([(offset, token)] ++ rest) = openings [(offset, token)] + openings rest :=
      List.countP_append
    rw [List.singleton_append] at hclosings hopenings
    omega

end Counting

/-! ## Refusing for the nesting -/

section Refusing

variable {s : State} {stack : List Frame} {depth size offset : Nat} {token : Token} {container : Container}
  {text : List Char}

theorem begin_eq_tooDeep_iff : State.begin depth stack offset token = .error (.tooDeep container) ↔
    token.opens? = some container ∧ depth ≤ stack.length := by
  cases token <;> simp [State.begin, State.open, Token.opens?, ite_eq_iff, and_comm]

/-- A container is refused as too deep exactly where a value is taken and no further container may be open. -/
theorem step_eq_tooDeep_iff : s.step depth offset token = .error (.tooDeep container) ↔
    token.opens? = some container ∧ depth ≤ s.openContainers ∧ ∃ next, s.step depth offset (.int 0) = .ok next := by
  obtain ⟨stack, expected⟩ := s
  have taken (stack : List Frame) : ∃ next, State.begin depth stack offset (.int 0) = .ok next := ⟨_, rfl⟩
  cases expected with
  | value => exact begin_eq_tooDeep_iff.trans (and_congr_right' (and_iff_left (taken stack)).symm)
  | firstItem =>
    have hbegin : State.step depth ⟨stack, .firstItem⟩ offset token = .error (.tooDeep container) ↔
        State.begin depth (.array [] :: stack) offset token = .error (.tooDeep container) := by
      cases token <;> simp [State.step, State.begin]
    exact hbegin.trans
      (begin_eq_tooDeep_iff.trans (and_congr_right' (and_iff_left (taken (.array [] :: stack))).symm))
  | _ =>
    -- Where no value may start, the opening of a container is refused like any other token.
    refine iff_of_false (fun h => ?_) (by rintro ⟨-, -, next, h⟩; cases h)
    cases token <;> simp [State.step, State.readKey] at h

theorem close_ne_tooDeep : s.close size ≠ .error (.tooDeep container) := by
  unfold State.close
  split <;> intro h <;> cases h

/-- A text is nested too deep: the tokens before the opening of a container begin a document that goes on with a
value, and as many containers are open there as may be. -/
def TooDeep (depth : Nat) (text : List Char) (container : Container) : Prop :=
  ∃ before offset token after, tokens text = before ++ (offset, token) :: after ∧ token.opens? = some container ∧
    Begins depth (before ++ [(offset, .int 0)]) ∧ closings before + depth ≤ openings before

theorem run_tokens_eq_tooDeep_iff :
    State.run depth size ⟨[], .value⟩ (tokens text) = .error (.tooDeep container) ↔ TooDeep depth text container := by
  unfold TooDeep
  simp only [begins_iff, State.takeAll_concat_eq_ok_iff]
  rw [State.run_eq_bind, bind_eq_error_iff]
  have count {before : List (Nat × Token)} {next : State}
      (h : State.takeAll depth ⟨[], .value⟩ before = .ok next) :
      depth ≤ next.openContainers ↔ closings before + depth ≤ openings before := by
    have hcount := openContainers_of_takeAll h
    have hstart : State.openContainers ⟨[], .value⟩ = 0 := rfl
    omega
  constructor
  · rintro (h | ⟨last, -, h⟩)
    · obtain ⟨before, offset, token, after, next, htokens, hbefore, h⟩ := takeAll_eq_error_iff.1 h
      obtain ⟨hopens, hdeep, last, hlast⟩ := step_eq_tooDeep_iff.1 h
      exact ⟨before, offset, token, after, htokens, hopens, ⟨last, next, hbefore, hlast⟩, (count hbefore).1 hdeep⟩
    · exact (close_ne_tooDeep h).elim
  · rintro ⟨before, offset, token, after, htokens, hopens, ⟨last, next, hbefore, hlast⟩, hdeep⟩
    exact .inl (takeAll_eq_error_iff.2 ⟨before, offset, token, after, next, htokens, hbefore,
      step_eq_tooDeep_iff.2 ⟨hopens, (count hbefore).2 hdeep, last, hlast⟩⟩)

/-- A text is refused for its nesting exactly if it is nested too deep. -/
theorem ofText_eq_tooDeep_iff : ofText depth text = .error (.tooDeep container) ↔ TooDeep depth text container := by
  rw [← @run_tokens_eq_tooDeep_iff depth text.length container text]
  unfold ofText
  split
  · rename_i cs
    have htokens : tokens ('\ufeff' :: cs) = (0, .unknown) :: tokensFrom 1 0 cs := rfl
    rw [htokens]
    refine iff_of_false ?_ ?_ <;> intro h <;> cases h
  · rfl

end Refusing

end JniSignatures.Json
