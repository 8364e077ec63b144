import JniSignatures.Files.Change
import JniSignatures.Host.Session
/-!
# The workspace of a run

A run works on the session with the host and on the file tree. A `Job` is an action on both that may
fail; what it has done before stays.
-/

namespace JniSignatures

/-- What a run works on. -/
structure Workspace where
  session : Session
  tree : Files.Tree
  /-- The lines printed to the error stream. -/
  complaints : List String
  deriving DecidableEq

/-- An action on the workspace. Its effects stay when it fails. -/
abbrev Job (ε : Type) := ExceptT ε (StateM Workspace)

namespace Job

variable {ε : Type}

/-- An action on the session as a job. -/
def onSession {α : Type} (action : ExceptT ε (StateM Session) α) : Job ε α :=
  ExceptT.mk fun w =>
    let (result, session) := action.run.run w.session
    (result, { w with session })

/-- An action on the file tree as a job. -/
def onTree {α : Type} (action : ExceptT ε (StateM Files.Tree) α) : Job ε α :=
  ExceptT.mk fun w =>
    let (result, tree) := action.run.run w.tree
    (result, { w with tree })

/-- Records a call. -/
def record (call : Call) : Job ε Unit :=
  modify fun w => { w with session := { w.session with calls := w.session.calls ++ [call] } }

/-- Prints lines. -/
def print (lines : List String) : Job ε Unit :=
  modify fun w =>
    { w with session := { w.session with printed := w.session.printed ++ lines.map Text.ofString } }

/-- Prints lines to the error stream. -/
def complain (lines : List String) : Job ε Unit :=
  modify fun w => { w with complaints := w.complaints ++ lines }

/-- Does a job and tells how it ended, instead of failing with it. -/
def outcome {ε' α : Type} (job : Job ε α) : Job ε' (Except ε α) :=
  ExceptT.mk fun w =>
    let (result, w) := job.run.run w
    (.ok result, w)

/-- What has been computed, or its failure. -/
def ofExcept {α : Type} : Except ε α → Job ε α
  | .ok value => pure value
  | .error fault => throw fault

end Job

end JniSignatures
