import Mathlib
import JniSignatures.Host.Workspace
import JniSignatures.Proofs.Running
/-!
# What the parts of a job do

A job works on the session and on the file tree side by side, and each part of it on one of them only. What
a part does is said by an equation for its run; what many parts in a row do is said by a relation on trees
and one on sessions (`Workspace.Along`).
-/

namespace JniSignatures

namespace Workspace

/-- The tree moves along one relation and the session along another. -/
def Along (T : Files.Tree → Files.Tree → Prop) (S : Session → Session → Prop) (w w' : Workspace) : Prop :=
  T w.tree w'.tree ∧ S w.session w'.session

section Along

variable {T : Files.Tree → Files.Tree → Prop} {S : Session → Session → Prop}

instance [IsPreorder Files.Tree T] [IsPreorder Session S] : IsPreorder Workspace (Along T S) where
  refl w := ⟨refl w.tree, refl w.session⟩
  trans _ _ _ h h' := ⟨trans_of T h.1 h'.1, trans_of S h.2 h'.2⟩

end Along

end Workspace

namespace Job

open Workspace (Along)

variable {ε ε' α : Type}

/-! ## Runs -/

section Runs

variable (w : Workspace)

theorem exec_onTree (action : ExceptT ε (StateM Files.Tree) α) : exec (onTree action) w =
    ((exec action w.tree).1, { w with tree := (exec action w.tree).2 }) :=
  rfl

/-- An action on the tree, in a job with failures of its own. -/
theorem exec_onTree_adapt {f : ε → ε'} {action : ExceptT ε (StateM Files.Tree) α} {result : Except ε α}
    {tree : Files.Tree} {w : Workspace} (h : exec action w.tree = (result, tree)) :
    exec (onTree (action.adapt f)) w = (result.mapError f, { w with tree := tree }) := by
  rw [exec_onTree, exec_adapt, h]

theorem exec_outcome (job : Job ε α) :
    exec (outcome job : Job ε' (Except ε α)) w = (.ok (exec job w).1, (exec job w).2) :=
  rfl

theorem exec_ofExcept (result : Except ε α) : exec (ofExcept result) w = (result, w) := by
  cases result <;> rfl

end Runs

/-! ## Along relations -/

section Moving

variable {T : Files.Tree → Files.Tree → Prop} {S : Session → Session → Prop}

theorem outcome_moves {R : Workspace → Workspace → Prop} {job : Job ε α} (h : Moves R job) :
    Moves R (outcome job : Job ε' (Except ε α)) :=
  h

theorem onTree_moves [IsPreorder Session S] {action : ExceptT ε (StateM Files.Tree) α} (h : Moves T action) :
    Moves (Along T S) (onTree action) :=
  fun w => ⟨h w.tree, refl w.session⟩

theorem record_moves [IsPreorder Files.Tree T] {call : Call}
    (h : ∀ s : Session, S s { s with calls := s.calls ++ [call] }) :
    Moves (Along T S) (record call : Job ε Unit) :=
  fun w => ⟨refl w.tree, h w.session⟩

theorem print_moves [IsPreorder Files.Tree T] {lines : List String}
    (h : ∀ s : Session, S s { s with printed := s.printed ++ lines.map Text.ofString }) :
    Moves (Along T S) (print lines : Job ε Unit) :=
  fun w => ⟨refl w.tree, h w.session⟩

end Moving

end Job

end JniSignatures
