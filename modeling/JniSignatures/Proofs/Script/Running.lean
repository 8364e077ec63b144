import Mathlib
import JniSignatures.Proofs.Host.Jobs
import JniSignatures.Proofs.Files.Gains
import JniSignatures.Proofs.Pass.Steps
import JniSignatures.Script.Run
/-!
# What the parts of the script do

Each part of a run of the script has an equation: the sweep, the closing of the archive, an attempt, the
question for the methods file. Of the whole it is said here when its pass reports (`Reports`, `Passed`), and
that all calls to the host that it makes are a script's (`run_recorded`).
-/

namespace JniSignatures

/-- Whether a call is one of those that a run of the script makes. -/
def Call.isOfScript : Call → Bool
  | .findModuleFile _ _ | .openInTool _ | .openFile _ | .close _ | .askFile _ _ => true
  | call => call.isOfPass

theorem Session.Calls.ofScript {s t : Session} (h : Session.Calls Call.isOfPass s t) :
    Session.Calls Call.isOfScript s t := by
  apply h.mono
  intro call hcall
  cases call <;> first | rfl | exact hcall

namespace Workspace

/-- The workspace after lines have been printed. -/
def printing (w : Workspace) (lines : List String) : Workspace :=
  { w with session := { w.session with printed := w.session.printed ++ lines.map Text.ofString } }

theorem printing_printing (w : Workspace) (lines more : List String) :
    (w.printing lines).printing more = w.printing (lines ++ more) := by
  simp [printing]

theorem printing_tree (w : Workspace) (lines : List String) : (w.printing lines).tree = w.tree :=
  rfl

end Workspace

theorem Job.exec_print {ε : Type} (lines : List String) (w : Workspace) :
    exec (Job.print lines : Job ε Unit) w = (.ok (), w.printing lines) :=
  rfl

open Workspace (Along)

/-! ## The archive -/

section Archive

variable {S : Session → Session → Prop} [IsPreorder Session S]

/-- Looking for the archive does nothing but record calls. -/
theorem Archive.acquire_moves {T : Files.Tree → Files.Tree → Prop} [IsPreorder Files.Tree T]
    (hcall : ∀ (s : Session) (call : Call), call.isOfScript → S s { s with calls := s.calls ++ [call] })
    (desk : Desk) (given : Option String) : Moves (Along T S) (acquire desk given) := by
  have record : ∀ {call : Call}, call.isOfScript → Moves (Along T S) (Job.record call : Job Fault Unit) :=
    fun h => Job.record_moves fun s => hcall s _ h
  unfold acquire
  split
  · exact Moves.pure _
  · refine Moves.bind ?_ fun path => Moves.get_bind fun w => ?_
    · unfold choosePath
      split
      · exact Moves.pure _
      · refine Moves.bind (record rfl) fun _ => ?_
        split
        · exact Moves.pure _
        · exact Moves.throw _
    · split
      · refine Moves.bind (record ?_) (fun _ => ?_) w
        · split_ifs <;> rfl
        · split
          · exact Moves.throw _
          · exact Moves.pure _
      · exact Moves.throw (Fault.notFound path) w

end Archive

namespace Script

/-! ## The parts -/

section Parts

variable {desk : Desk} {depth : Nat} {archive : Archive} {policy : Policy} {methodsPath : String} {w : Workspace}

/-- The session with the types of an archive and none looked up yet. -/
def opened (archive : Archive) (s : Session) : Session :=
  { s with types := archive.types, known := [] }

theorem exec_sweep (depth : Nat) (archive : Archive) (policy : Policy) (methodsPath : String) (w : Workspace) :
    exec (sweep depth archive policy methodsPath) w = match Method.load depth w.tree methodsPath with
      | .error fault => (.error (.methods fault), { w with session := opened archive w.session })
      | .ok methods =>
        ((exec (Pass.run policy methods) (opened archive w.session)).1.mapError .action,
          { w with session := (exec (Pass.run policy methods) (opened archive w.session)).2 }) := by
  have hload : exec (sweep depth archive policy methodsPath) w =
      exec (Job.ofExcept ((Method.load depth w.tree methodsPath).mapError .methods) >>= fun methods =>
        Job.onSession ((Pass.run policy methods).adapt .action)) { w with session := opened archive w.session } := rfl
  rw [hload]
  cases Method.load depth w.tree methodsPath with
  | error fault => rfl
  | ok methods => rfl

theorem exec_close (desk : Desk) (archive : Archive) (w : Workspace) :
    (exec (close desk archive) w).2 =
      { w with session := { w.session with calls := w.session.calls ++ [.close archive.label] } } := by
  unfold close
  cases desk.closeRefusal with
  | some message => rfl
  | none => rfl

/-- What fails in an attempt goes unnoticed. -/
theorem exec_attempt {ε ε' : Type} (job : Job ε Unit) (w : Workspace) :
    exec (attempt job : Job ε' Unit) w = (.ok (), (exec job w).2) :=
  rfl

theorem exec_closing {α : Type} {job : Job Failure α} {result : Except Failure α} {w' : Workspace}
    (h : exec job w = (result, w')) : exec (closing desk archive job) w = (result,
      if desk.service.isNone then
        { w' with session := { w'.session with calls := w'.session.calls ++ [.close archive.label] } }
      else w') := by
  unfold closing
  have houtcome : exec (Job.outcome job : Job Failure _) w = (.ok result, w') := by rw [Job.exec_outcome, h]
  rw [exec_bind_ok houtcome]
  split_ifs
  · rw [exec_bind_ok (exec_attempt _ _), Job.exec_ofExcept, exec_close]
  · exact Job.exec_ofExcept w' result

end Parts

/-! ## The calls -/

section Calls

variable {T : Files.Tree → Files.Tree → Prop}

theorem closing_moves {α : Type} (desk : Desk) (archive : Archive) {job : Job Failure α}
    (h : Moves (Along T (Session.Calls Call.isOfScript)) job) :
    Moves (Along T (Session.Calls Call.isOfScript)) (closing desk archive job) := by
  intro w
  cases hjob : exec job w with
  | mk result w₁ =>
    obtain ⟨htree, hcalls⟩ := h.of_exec hjob
    rw [exec_closing hjob]
    split_ifs
    · exact ⟨htree, trans_of (Session.Calls Call.isOfScript) hcalls (.single rfl rfl)⟩
    · exact ⟨htree, hcalls⟩

variable [IsPreorder Files.Tree T]

theorem print_moves {ε : Type} (lines : List String) :
    Moves (Along T (Session.Calls Call.isOfScript)) (Job.print lines : Job ε Unit) :=
  Job.print_moves fun _ => .of_eq rfl

theorem sweep_moves (depth : Nat) (archive : Archive) (policy : Policy) (methodsPath : String) :
    Moves (Along T (Session.Calls Call.isOfScript)) (sweep depth archive policy methodsPath) := by
  intro w
  rw [exec_sweep]
  split
  · exact ⟨refl w.tree, .of_eq rfl⟩
  · rename_i methods _
    cases hpass : exec (Pass.run policy methods) (opened archive w.session) with
    | mk result s =>
      exact ⟨refl w.tree, (Pass.calls_of_exec hpass).ofScript⟩

theorem acquire_sweep_moves (desk : Desk) (options : Options) (methodsPath : String) :
    Moves (Along T (Session.Calls Call.isOfScript)) (do
      let archive ← (Archive.acquire desk options.archive).adapt .archive
      closing desk archive (sweep (desk.runtime.depth .methods) archive options.policy methodsPath)) := by
  refine Moves.bind (Moves.adapt ?_ _) fun archive => closing_moves desk archive (sweep_moves _ _ _ _)
  exact Archive.acquire_moves (fun _ _ hcall => .single hcall rfl) desk options.archive

end Calls

/-! ## The pass -/

/-- The archive is there, the methods are loaded, and the pass with both returns a report. -/
structure Swept (desk : Desk) (options : Options) (methodsPath : String) (w : Workspace) (r : Report)
    (archive : Archive) (methods : List Method) (session : Session) : Prop where
  found : ∃ asked, asked.tree = w.tree ∧ (exec (Archive.acquire desk options.archive) asked).1 = .ok archive
  loaded : Method.load (desk.runtime.depth .methods) w.tree methodsPath = .ok methods
  functions : session.functions = w.session.functions
  types : session.types = archive.types
  known : session.known = []
  returned : (exec (Pass.run options.policy methods) session).1 = .ok r

/-- The pass reports `r`, for the functions and the tree of `w`. -/
def Reports (desk : Desk) (options : Options) (methodsPath : String) (w : Workspace) (r : Report) : Prop :=
  ∃ archive methods session, Swept desk options methodsPath w r archive methods session

/-- Of a workspace only the tree and the functions count. -/
theorem Reports.congr {desk : Desk} {options : Options} {methodsPath : String} {w w' : Workspace} {r : Report}
    (h : Reports desk options methodsPath w' r) (htree : w'.tree = w.tree)
    (hfunctions : w'.session.functions = w.session.functions) : Reports desk options methodsPath w r := by
  obtain ⟨archive, methods, session, swept⟩ := h
  obtain ⟨asked, hasked, hfound⟩ := swept.found
  exact ⟨archive, methods, session,
    { found := ⟨asked, hasked.trans htree, hfound⟩
      loaded := htree ▸ swept.loaded
      functions := swept.functions.trans hfunctions
      types := swept.types
      known := swept.known
      returned := swept.returned }⟩

/-! ## The whole script -/

section Whole

variable {desk : Desk} {options : Options} {methodsPath : String} {w w' : Workspace}

/-- The workspace after the user has been asked for the methods file. -/
def askedFor (w : Workspace) : Workspace :=
  { w with session :=
    { w.session with calls := w.session.calls ++ [.askFile "Select method argument file" "Open"] } }

theorem exec_askMethods_some (h : desk.chosenFile = some methodsPath) (w : Workspace) :
    exec (askMethods desk) w = (.ok methodsPath, askedFor w) := by
  unfold askMethods
  rw [h]
  rfl

theorem exec_askMethods_none (h : desk.chosenFile = none) (w : Workspace) :
    exec (askMethods desk) w = (.error .noChoice, askedFor w) := by
  unfold askMethods
  rw [h]
  rfl

end Whole

/-! ### Its end -/

section Ended

variable {desk : Desk} {trace : Text → List String} {options : Options} {methodsPath : String} {failure : Failure}
  {w w' : Workspace}

/-- The tree after a failure has been told. -/
def toldTree (trace : Text → List String) (options : Options) (failure : Failure) (t : Files.Tree) : Files.Tree :=
  match options.reportDirectory with
  | none => t
  | some directory => (exec (writeError trace directory failure) t).2

/-- The notice that the pass is complete. -/
def completion : String :=
  "JNI Lens signature pass complete"

/-- The notice that the pass has failed. -/
def failureNotice (options : Options) : String :=
  match options.reportDirectory with
  | none => "JNI Lens signature pass failed"
  | some directory => "JNI Lens signature pass failed; see " ++ Files.joinText directory errorFileName

theorem completion_ne_failureNotice (options : Options) : completion ≠ failureNotice options := by
  unfold failureNotice
  cases options.reportDirectory with
  | none => decide
  | some directory =>
    intro h
    have hlead : "JNI Lens signature pass failed".toList <+: completion.toList := by
      rw [h]
      dsimp only
      rw [String.toList_append]
      exact List.IsPrefix.trans (by decide) (List.prefix_append _ _)
    exact absurd hlead (by decide)

/-- The workspace after a failure has been told. -/
def told (trace : Text → List String) (options : Options) (failure : Failure) (w : Workspace) : Workspace :=
  ({ w with tree := toldTree trace options failure w.tree }).printing [failureNotice options]

theorem told_tree (trace : Text → List String) (options : Options) (failure : Failure) (w : Workspace) :
    (told trace options failure w).tree = toldTree trace options failure w.tree :=
  rfl

/-- Telling a failure does not fail. -/
theorem exec_tell (trace : Text → List String) (options : Options) (failure : Failure) (w : Workspace) :
    exec (tell trace options failure) w = (.ok (), told trace options failure w) := by
  unfold tell told toldTree failureNotice
  cases options.reportDirectory with
  | none => rfl
  | some directory =>
    dsimp only
    rw [exec_bind_ok (exec_attempt _ _), Job.exec_onTree]
    rfl

theorem exec_runTold_ok (h : exec (runPass desk options methodsPath) w = (.ok (), w')) :
    exec (runTold desk options methodsPath) w = (.ok (), w'.printing [completion]) := by
  unfold runTold
  rw [exec_bind_ok (exec_tryCatch_ok h), Job.exec_print]
  rfl

/-- The failure of the pass is told and is then the failure of the whole. -/
theorem exec_runTold_error (h : exec (runPass desk options methodsPath) w = (.error failure, w')) :
    exec (runTold desk options methodsPath) w = (.error failure, told desk.runtime.trace options failure w') := by
  unfold runTold
  apply exec_bind_error
  rw [exec_tryCatch_error h, exec_bind_ok (exec_tell desk.runtime.trace options failure w')]
  rfl

end Ended

/-! ### Its calls -/

section Recorded

/-- No matter what becomes of the tree, only the script's calls are recorded. -/
abbrev Recorded : Workspace → Workspace → Prop :=
  Along (Files.Tree.Gains fun _ _ => True) (Session.Calls Call.isOfScript)

theorem onTree_recorded {ε α : Type} (action : ExceptT ε (StateM Files.Tree) α) :
    Moves Recorded (Job.onTree action) :=
  Job.onTree_moves fun _ _ _ _ _ => .inr trivial

theorem runPass_recorded (desk : Desk) (options : Options) (methodsPath : String) :
    Moves Recorded (runPass desk options methodsPath) := by
  refine Moves.bind (print_moves _) fun _ => ?_
  rw [← bind_assoc]
  refine Moves.bind (acquire_sweep_moves desk options methodsPath) fun r => ?_
  split
  · exact Moves.pure ()
  · exact Moves.bind (onTree_recorded _) fun _ => print_moves _

theorem tell_recorded (trace : Text → List String) (options : Options) (failure : Failure) :
    Moves Recorded (tell trace options failure) := by
  unfold tell
  split
  · exact print_moves _
  · exact Moves.bind (Moves.bind (Job.outcome_moves (onTree_recorded _)) fun _ => Moves.pure ()) fun _ =>
      print_moves _

theorem runTold_recorded (desk : Desk) (options : Options) (methodsPath : String) :
    Moves Recorded (runTold desk options methodsPath) := by
  refine Moves.bind (Moves.tryCatch (runPass_recorded desk options methodsPath) fun failure => ?_) fun _ =>
    print_moves _
  exact Moves.bind (tell_recorded desk.runtime.trace options failure) fun _ => Moves.throw failure

/-- Whatever happens, the script makes no calls but its own. -/
theorem run_recorded (desk : Desk) (args : List String) : Moves Recorded (run desk args) := by
  unfold run
  refine Moves.bind (print_moves _) fun _ => ?_
  split_ifs
  · exact print_moves _
  · split
    · exact runTold_recorded _ _ _
    · exact print_moves _
  · split
    · exact runTold_recorded _ _ _
    · refine Moves.bind ?_ fun _ => runTold_recorded _ _ _
      refine Moves.bind (Job.record_moves fun s => .single rfl rfl) fun _ => ?_
      split
      · exact Moves.pure _
      · exact Moves.throw _

end Recorded

end Script

end JniSignatures
