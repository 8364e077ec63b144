import Mathlib
import JniSignatures.Proofs.Launch.Running
import JniSignatures.Proofs.Report.Leaving
import JniSignatures.Proofs.Script.Course
import JniSignatures.Proofs.Script.Options
/-!
# What the script makes of the launcher's arguments

The launcher writes the paths of the methods file and of the report's directory into texts, in front of the
arguments that it passes on, and the script reads texts. It reads both paths as they are: that of the methods
file if it has no equals sign, and that of the directory always, since it starts with a slash and ends with a
name of the launcher's own (`ofArgs_scriptArgs`). The arguments that are passed on all have an equals sign and
are read as if there were no others. A launch runs no script with any other arguments (`launch_hands`).
-/

namespace JniSignatures.Launch

open Files (Content FileM Location Path PlainName Tree)
open Workspace (Along)

/-- The path of the methods file, as the launcher hands it on. -/
def methodsFile (home : Location) (a : Arguments) : Path :=
  (Path.ofText a.methods).absolute home

/-! ## The texts of the paths -/

section Texts

/-- The directory's text has no blank at its ends, whatever the names in it. -/
theorem exists_reportDirectory_text (home : Location) (a : Arguments) :
    ∃ front, (reportDirectory home a).text = "/" ++ front ++ "report" := by
  have hchild : reportDirectory home a = { (Path.ofText a.outDirectory).absolute home with
      parts := ((Path.ofText a.outDirectory).absolute home).parts ++ ["report"] } :=
    Path.child_eq (show Path.ofText "report" = ⟨"", ["report"]⟩ by decide)
  rw [hchild, Files.text_of_slash rfl]
  by_cases hparts : ((Path.ofText a.outDirectory).absolute home).parts = []
  · exact ⟨"", by rw [hparts]; rfl⟩
  · refine ⟨String.intercalate "/" ((Path.ofText a.outDirectory).absolute home).parts ++ "/", ?_⟩
    rw [String.intercalate_append_of_ne_nil hparts (by simp)]
    simp [String.append_assoc]

theorem trim_reportDirectory (home : Location) (a : Arguments) :
    Text.trim (reportDirectory home a).text = (reportDirectory home a).text := by
  obtain ⟨front, hfront⟩ := exists_reportDirectory_text home a
  rw [hfront]
  apply Text.trim_eq_self
  · intro c hc
    have hslash : c = '/' := by simpa using hc.symm
    rw [hslash]
    decide
  · intro c hc
    have hlast : c = 't' := by
      rw [String.toList_append, List.getLast?_append_of_ne_nil _ (by simp)] at hc
      simpa using hc.symm
    rw [hlast]
    decide

theorem isHelp_methodsFile (home : Location) (a : Arguments) : Options.isHelp (methodsFile home a).text = false := by
  rw [Files.text_of_slash rfl]
  have hne : ∀ rest s : String, s.toList.head? ≠ some '/' → ("/" ++ rest == s) = false := by
    intro rest s hs
    apply beq_eq_false_iff_ne.2
    rintro rfl
    exact hs (by simp)
  unfold Options.isHelp
  rw [hne _ _ (by decide), hne _ _ (by decide)]
  rfl

end Texts

/-! ## The arguments that are passed on -/

section Passing

/-- The argument has an equals sign. -/
def IsOption (arg : String) : Prop :=
  ∃ key value, Options.split? arg = some (key, value)

/-- Only options are passed on. -/
theorem read_isOption {d d' : Arguments.Draft} {args : List String} (h : d.read args = .ok d')
    (hd : ∀ arg ∈ d.scriptArgs, IsOption arg) : ∀ arg ∈ d'.scriptArgs, IsOption arg := by
  fun_induction Arguments.Draft.read d args with
  | case1 d =>
    cases h
    exact hd
  | case2 => cases h
  | case3 => cases h
  | case4 d arg _ _ value rest ih => exact ih h hd
  | case5 d arg rest _ _ key value hsplit ih =>
    apply ih h
    unfold Arguments.Draft.setOption
    split_ifs
    · exact hd
    · exact List.forall_mem_append.2 ⟨hd, List.forall_mem_singleton.2 ⟨key, value, hsplit⟩⟩
  | case6 d arg rest _ _ _ next hadd ih =>
    apply ih h
    unfold Arguments.Draft.addPositional at hadd
    split at hadd <;> cases hadd <;> exact hd
  | case7 => cases h

variable {args : List String} {a : Arguments}

theorem scriptArgs_isOption (ha : Arguments.ofList args = .ok a) : ∀ arg ∈ a.scriptArgs, IsOption arg := by
  unfold Arguments.ofList at ha
  cases hread : Arguments.Draft.initial.read args with
  | error exit =>
    rw [hread] at ha
    cases ha
  | ok d =>
    have hd : ∀ arg ∈ d.scriptArgs, IsOption arg := read_isOption hread (by simp [Arguments.Draft.initial])
    rw [hread] at ha
    have hfinish : d.finish = .ok a := ha
    unfold Arguments.Draft.finish at hfinish
    split at hfinish
    · split_ifs at hfinish
      cases hfinish
      exact hd
    · cases hfinish

/-- No argument that is passed on says where the methods file is, or where to save the report. -/
def LeavesPaths (a : Arguments) : Prop :=
  ∀ arg ∈ a.scriptArgs, ∀ key value, Options.split? arg = some (key, value) → key ≠ "methods" ∧ key ≠ "report_dir"

/-- The script reads the two paths as they are, and of the other arguments what they say by themselves. -/
theorem ofArgs_scriptArgs {home : Location} (ha : Arguments.ofList args = .ok a)
    (hmethods : '=' ∉ (methodsFile home a).text.toList) (hpaths : LeavesPaths a) :
    Options.ofArgs (scriptArgs home a) =
      ({ (Options.ofArgs a.scriptArgs).1 with
          methodsPath := some (methodsFile home a).text
          reportDirectory := some (reportDirectory home a).text
          help := false },
        (Options.ofArgs a.scriptArgs).2) := by
  have hothers : ∀ arg ∈ a.scriptArgs, Options.SetsOther arg := by
    intro arg harg
    obtain ⟨key, value, hsplit⟩ := scriptArgs_isOption ha arg harg
    exact ⟨key, value, hsplit, hpaths arg harg key value hsplit⟩
  have hnonempty : (reportDirectory home a).text ≠ "" := by
    obtain ⟨front, hfront⟩ := exists_reportDirectory_text home a
    rw [hfront]
    simp
  exact Options.ofArgs_paths (isHelp_methodsFile home a) hmethods hnonempty (trim_reportDirectory home a) hothers

end Passing

/-! ## Handing on -/

/-- A call to run a script runs the given one with the given arguments. -/
def handsOn (script : String) (given : List String) : Call → Bool
  | .runScript other args => other = script && args = given
  | _ => true

theorem handsOn_of_isOfScript (script : String) (given : List String) {call : Call} (h : call.isOfScript) :
    handsOn script given call := by
  cases call <;> first | rfl | cases h

/-- The binary and the methods file are there, and it is told where the host is. -/
structure Ready (setting : Setting) (a : Arguments) (w : Workspace) (binary : Path) (directory : String) : Prop where
  binary : (exec (findBinary setting.searchPath a.binary) w).1 = .ok binary
  methods : w.tree.probeFile (Path.ofText a.methods) = .ok true
  install : setting.installDirectory.filter (· ≠ "") = some directory

/-- What is left of a launch from the script on. -/
def conclude (setting : Setting) (home : Location) (a : Arguments) (given : List String) : Job Stop Unit := do
  runScript setting given
  Job.record .stop
  if ← isFile (errorFile home a) then giveUp ["JNI Lens pass failed; see " ++ (errorFile home a).text]
  if !(← isFile (reportFile home a)) then giveUp ["JNI Lens pass failed; missing " ++ (reportFile home a).text]
  Job.print ["JNI Lens report: " ++ (reportFile home a).text]

/-- What is left of a launch when the host has started. -/
def started (setting : Setting) (home : Location) (a : Arguments) : Job Stop Unit := do
  let methodsFile ← resolve a.methods
  conclude setting home a
    (methodsFile.text :: ("report_dir=" ++ (reportDirectory home a).text) :: a.scriptArgs)

section Handing

variable {setting : Setting} {args : List String} {a : Arguments} {w w' : Workspace} {binary : Path} {directory : String}

theorem exec_isFile_ok {path : Path} {isThere : Bool} (h : w.tree.probeFile path = .ok isThere) :
    exec (isFile path) w = (.ok isThere, w) := by
  rw [exec_isFile, h]
  rfl

/-- Resolving a path does nothing, even if it fails. -/
theorem exec_resolve_snd (text : String) (w : Workspace) : (exec (resolve text) w).2 = w := by
  unfold resolve
  dsimp only
  split_ifs
  · rfl
  · rfl

/-- A launch for which all is ready comes to the making of the directory, unless that has no path. Without a
script it gives up before. -/
theorem exec_run_ready (ha : Arguments.ofList args = .ok a) (ready : Ready setting a w binary directory) :
    exec (run setting args) w =
      if setting.hasScript then exec (resolve a.outDirectory >>= fun _ =>
        launch setting w.tree.home a (startOf w.tree.home a binary (Path.ofText directory))) w
      else exec (giveUp ["Could not locate " ++ setting.script ++ "."] : Job Stop Unit) w := by
  have hbinary : exec (findBinary setting.searchPath a.binary) w = (.ok binary, w) := by
    cases hfind : exec (findBinary setting.searchPath a.binary) w with
    | mk found w' =>
      have hfound := ready.binary
      rw [hfind] at hfound
      obtain rfl : found = .ok binary := hfound
      rw [exec_findBinary_eq_ok hfind]
  have hpure : ∀ {α : Type} (x : α), exec (pure x : Job Stop α) w = (.ok x, w) := fun _ => rfl
  unfold run
  rw [ha]
  dsimp only
  rw [exec_bind_ok (hpure a), exec_bind_ok hbinary, exec_bind_ok (exec_isFile_ok ready.methods), ready.install]
  dsimp only
  rw [Bool.not_true, if_neg Bool.false_ne_true, exec_bind_ok (hpure _)]
  by_cases hscript : setting.hasScript
  case neg =>
    rw [if_pos (by simpa using hscript), if_neg hscript]
    rfl
  rw [if_neg (by simp [hscript]), if_pos hscript]
  cases hresolve : exec (resolve a.outDirectory) w with
  | mk resolved w₁ =>
    cases resolved with
    | error stop => rw [exec_bind_error hresolve, exec_bind_error hresolve]
    | ok outDirectory =>
      obtain ⟨rfl, rfl⟩ := exec_resolve_eq_ok hresolve
      rw [exec_bind_ok hresolve, exec_bind_ok hresolve]
      rfl

/-- No script is run but one, with given arguments. -/
abbrev Hands (script : String) (given : List String) : Workspace → Workspace → Prop :=
  Along (Tree.Gains fun _ _ => True) (Session.Calls (handsOn script given))

theorem record_hands {script : String} {given : List String} {call : Call} (h : handsOn script given call) :
    Moves (Hands script given) (Job.record call : Job Stop Unit) :=
  Job.record_moves fun _ => .single h rfl

theorem giveUp_hands {script : String} {given : List String} {α : Type} (lines : List String) :
    Moves (Hands script given) (giveUp lines : Job Stop α) := by
  refine Moves.bind ?_ fun _ => Moves.throw _
  intro w
  exact ⟨refl w.tree, .of_eq rfl⟩

theorem isFile_hands {script : String} {given : List String} (path : Path) :
    Moves (Hands script given) (isFile path) := by
  intro w
  rw [exec_isFile]
  exact refl w

/-- The script is run with the arguments that it is to be run with, and itself runs none. -/
theorem runScript_hands (setting : Setting) (given : List String) :
    Moves (Hands setting.script given) (runScript setting given) := by
  unfold runScript
  refine Moves.bind (record_hands (by simp [handsOn])) fun _ => ?_
  split_ifs
  · refine Moves.bind (Job.outcome_moves ?_) fun outcome => ?_
    · intro w
      have hrun := Script.run_recorded setting.desk given w
      exact ⟨hrun.1, hrun.2.mono fun call => handsOn_of_isOfScript _ _⟩
    · cases outcome with
      | ok => exact Moves.pure _
      | error => exact record_hands rfl
  · exact Moves.pure _

/-- From the script on, no other one is run. -/
theorem conclude_hands (setting : Setting) (home : Location) (a : Arguments) (given : List String) :
    Moves (Hands setting.script given) (conclude setting home a given) := by
  have hprint : ∀ lines, Moves (Hands setting.script given) (Job.print lines : Job Stop Unit) :=
    fun lines => Job.print_moves fun _ => .of_eq rfl
  have hreport : Moves (Hands setting.script given) (do
      if !(← isFile (reportFile home a)) then giveUp ["JNI Lens pass failed; missing " ++ (reportFile home a).text]
      Job.print ["JNI Lens report: " ++ (reportFile home a).text]) := by
    refine Moves.bind (isFile_hands _) fun isReport => ?_
    split_ifs
    · exact Moves.bind (giveUp_hands _) fun _ => hprint _
    · exact hprint _
  unfold conclude
  refine Moves.bind (runScript_hands setting given) fun _ => Moves.bind (record_hands rfl) fun _ =>
    Moves.bind (isFile_hands _) fun isError => ?_
  split_ifs
  · exact Moves.bind (giveUp_hands _) fun _ => hreport
  · exact hreport

theorem exec_launch_prepared {home : Location} {start : Start} {prepared : Tree}
    (hprepare : exec (prepare ((Path.ofText a.outDirectory).absolute home) (reportFile home a) (errorFile home a))
      w.tree = (.ok (), prepared)) :
    exec (launch setting home a start) w = match setting.behaviour with
      | .refusesStart message => (.error (.refused message), Workspace.called { w with tree := prepared } [.start start])
      | _ => exec (started setting home a) (Workspace.called { w with tree := prepared } [.start start]) := by
  unfold launch
  dsimp only
  rw [exec_bind_ok (Job.exec_onTree_adapt hprepare), exec_bind_ok (Job.exec_record _ _)]
  cases setting.behaviour with
  | runsScript => rfl
  | ignoresScript => rfl
  | refusesStart message => exact exec_bind_error rfl

theorem started_hands {ended : Except Stop Unit} (h : exec (started setting w.tree.home a) w = (ended, w')) :
    Session.Calls (handsOn setting.script (scriptArgs w.tree.home a)) w.session w'.session := by
  unfold started at h
  cases hresolve : exec (resolve a.methods) w with
  | mk resolved w₁ =>
    cases resolved with
    | error stop =>
      have hsame := exec_resolve_snd a.methods w
      rw [hresolve] at hsame
      cases (exec_bind_error hresolve).symm.trans h
      exact .of_eq (congrArg (·.session.calls) hsame)
    | ok path =>
      obtain ⟨rfl, rfl⟩ := exec_resolve_eq_ok hresolve
      rw [exec_bind_ok hresolve] at h
      exact ((conclude_hands setting _ a (scriptArgs _ a)).of_exec h).2

/-- A launch hands one list of arguments on, whatever else comes of it. -/
theorem launch_hands {start : Start} {ended : Except Stop Unit}
    (h : exec (launch setting w.tree.home a start) w = (ended, w')) :
    Session.Calls (handsOn setting.script (scriptArgs w.tree.home a)) w.session w'.session := by
  cases hprepare : exec (prepare ((Path.ofText a.outDirectory).absolute w.tree.home) (reportFile w.tree.home a)
      (errorFile w.tree.home a)) w.tree with
  | mk made prepared =>
  cases made with
  | error fault =>
    unfold launch at h
    cases (exec_bind_error (Job.exec_onTree_adapt hprepare)).symm.trans h
    exact .of_eq rfl
  | ok =>
    rw [exec_launch_prepared hprepare] at h
    have hstart : Session.Calls (handsOn setting.script (scriptArgs w.tree.home a)) w.session
        (Workspace.called { w with tree := prepared } [.start start]).session := .single rfl rfl
    have hhome : (Workspace.called { w with tree := prepared } [.start start]).tree.home = w.tree.home :=
      home_of_prepare hprepare
    have hrest : exec (started setting w.tree.home a) (Workspace.called { w with tree := prepared } [.start start]) =
        (ended, w') → Session.Calls (handsOn setting.script (scriptArgs w.tree.home a)) w.session w'.session := by
      intro h
      rw [← hhome] at h
      have hcalls := started_hands h
      rw [hhome] at hcalls
      exact trans_of (Session.Calls _) hstart hcalls
    cases hb : setting.behaviour with
    | runsScript =>
      rw [hb] at h
      exact hrest h
    | ignoresScript =>
      rw [hb] at h
      exact hrest h
    | refusesStart message =>
      rw [hb] at h
      cases h
      exact hstart

end Handing

end JniSignatures.Launch
