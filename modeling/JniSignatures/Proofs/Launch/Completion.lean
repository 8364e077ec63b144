import Mathlib
import JniSignatures.Proofs.Launch.Handover
import JniSignatures.Proofs.Launch.Success
/-!
# When the launcher returns

The launcher has removed the error file before the script runs, and saving a report puts no file of that
name anywhere, so a launch whose script saves its report finds the report and no error file (`looks_of_save`).
Since the script reads the paths that the launcher writes, its report is saved where the launcher looks for it
(`launch_agrees`).
-/

namespace JniSignatures.Launch

open Files (Content FileM Followable Location Path PlainName Tree)

/-! ## The two files -/

section Looking

variable {t t' : Tree} {home : Location} {a : Arguments}

theorem errorFile_of_prepare {outDirectory reportFile errorFile : Path} (ht : t.WellFormed) (hd : errorFile.Direct)
    (hne : errorFile.parts ≠ []) (h : exec (prepare outDirectory reportFile errorFile) t = (.ok (), t')) :
    t'.node? errorFile.parts = none ∧ Followable errorFile.text := by
  obtain ⟨_, t₁, hmake, h⟩ := exec_bind_eq_ok h
  obtain ⟨_, t₂, hreport, herror⟩ := exec_bind_eq_ok h
  have hmakes : Moves (Order.Preimage Tree.WellFormed (· ≤ ·))
      (FileM.makePath (outDirectory.ancestors.map Path.text)) :=
    FileM.makePath_moves fun text _ t t' hd ht => ht.makeDirectory hd
  have ht₁ : t₁.WellFormed := hmakes.of_exec hmake ht
  have ht₂ : t₂.WellFormed := by
    rcases exec_discard_eq_ok hreport with hremove | ⟨-, rfl⟩
    · exact ht₁.remove hremove
    · exact ht₁
  rcases exec_discard_eq_ok herror with hremove | ⟨hentry, rfl⟩
  · exact ⟨Tree.node?_of_remove hd hne hremove, (Files.Tree.following_eq_ok_iff.1 hremove).1⟩
  · refine ⟨ht₂.node?_of_remove hd hne hentry, Tree.followable_of_noEntry ?_ hentry⟩
    intro hempty
    have hsteps := Files.steps_text hd.wellFormed hne
    rw [hempty] at hsteps
    exact hne hsteps.symm

/-- Once a report has been saved, the launcher finds it, and no error file. -/
theorem looks_of_save {tables : Table.Library} {outDirectory path : Path} {prepared saved : Tree} {r : Report}
    {programName methodsPath : Option String}
    (keeps : tables.Keeps ((reportDirectory home a).child Report.tablePath).text)
    (ht : t.WellFormed) (hhome : ∀ name ∈ home, PlainName name)
    (hprepare : exec (prepare outDirectory (reportFile home a) (errorFile home a)) t = (.ok (), prepared))
    (hsave : exec (Report.save tables (reportDirectory home a).text r programName methodsPath) prepared =
      (.ok path, saved)) :
    saved.probeFile (errorFile home a) = .ok false ∧ saved.probeFile (reportFile home a) = .ok true := by
  have hdirectory := reportDirectory_direct hhome a
  have hne : (reportDirectory home a).parts ≠ [] := by
    have hparts : (reportDirectory home a).parts = ((Path.ofText a.outDirectory).absolute home).parts ++ ["report"] := by
      rw [reportDirectory, Path.child_eq (show Path.ofText "report" = ⟨"", ["report"]⟩ by decide)]
    simp [hparts]
  have hpath := Path.ofText_text hdirectory hne
  obtain ⟨-, hwritten⟩ := Report.written_of_save hsave
  rw [hpath] at hwritten
  obtain ⟨place, hholds⟩ := hwritten.report
  refine ⟨?_, hholds.probeFile⟩
  have herror := errorFile_direct hhome a
  have hparts := errorFile_parts home a
  obtain ⟨hnone, hfollow⟩ := errorFile_of_prepare ht herror (by simp [hparts]) hprepare
  refine Tree.probeFile_beside herror hparts (reportFile_direct hhome a) (reportFile_parts home a) (by simp) hholds
    hfollow (by decide) ?_
  intro content executable hnode
  have hlast : (errorFile home a).parts.getLast? = some Script.errorFileName := by
    rw [hparts, List.getLast?_concat]
  rw [← hpath] at keeps
  rcases Report.alters_of_save keeps hsave (errorFile home a).parts with hsame | hfacts | hreport
  · rw [Tree.content?, Tree.content?, hnode, hnone] at hsame
    cases hsame
  · exact Report.not_isOfFacts hlast (by decide) hfacts
  · rw [hlast] at hreport
    exact absurd hreport (by decide)

end Looking

/-! ## The way to the end -/

section Completing

variable {setting : Setting} {args : List String} {a : Arguments} {w after : Workspace} {binary : Path}
  {directory : String} {given : List String}

theorem null_notMem_of_probe {t : Tree} {p : Path} (h : t.probeFile p = .ok true) :
    ∀ part ∈ p.parts, '\x00' ∉ part.toList := by
  intro part hpart hnull
  cases hl : t.locate p.text with
  | ok place =>
    have hfollow := (Files.Tree.following_eq_ok_iff.1 hl).1
    exact hfollow.1 (Files.mem_text_of_mem_parts hpart hnull)
  | error fault =>
    have hno : t.probeFile p ≠ .ok true := by
      unfold Tree.probeFile Tree.probe Tree.find
      rw [hl]
      cases fault with
      | nullCharacter => simp
      | refused errno text => cases errno <;> simp
    exact hno h

theorem exec_resolve {text : String} (h : ∀ part ∈ (Path.ofText text).parts, '\x00' ∉ part.toList) (w : Workspace) :
    exec (resolve text) w = (.ok ((Path.ofText text).absolute w.tree.home), w) := by
  have hnone : (Path.ofText text).parts.any (·.toList.contains '\x00') = false := by
    rw [List.any_eq_false]
    intro part hpart hnull
    exact h part hpart (List.contains_iff_mem.1 hnull)
  unfold resolve
  dsimp only
  rw [hnone, if_neg Bool.false_ne_true]
  rfl

theorem exec_runScript (hb : setting.behaviour = .runsScript)
    (h : exec (Script.run setting.desk given) (w.called [.runScript setting.script given]) = (.ok (), after)) :
    exec (runScript setting given) w = (.ok (), after) := by
  have houtcome : exec (Job.outcome (Script.run setting.desk given) : Job Stop _)
      (w.called [.runScript setting.script given]) = (.ok (.ok ()), after) := by rw [Job.exec_outcome, h]
  unfold runScript
  rw [exec_bind_ok (Job.exec_record _ _), if_pos hb, exec_bind_ok houtcome]
  rfl

theorem exec_conclude {home : Location} (hscript : exec (runScript setting given) w = (.ok (), after))
    (herror : after.tree.probeFile (errorFile home a) = .ok false)
    (hreport : after.tree.probeFile (reportFile home a) = .ok true) :
    (exec (conclude setting home a given) w).1 = .ok () := by
  have hlook : ∀ {path isThere}, after.tree.probeFile path = .ok isThere →
      exec (isFile path) (after.called [.stop]) = (.ok isThere, after.called [.stop]) := fun h => exec_isFile_ok h
  unfold conclude
  rw [exec_bind_ok hscript, exec_bind_ok (Job.exec_record _ _), exec_bind_ok (hlook herror)]
  rw [if_neg Bool.false_ne_true]
  show (exec (isFile (reportFile home a) >>= _) _).1 = _
  rw [exec_bind_ok (hlook hreport), Bool.not_true, if_neg Bool.false_ne_true]
  rfl

/-- The script is there and the host runs it, the pass for the handed methods file and the passed arguments reports,
and its report can be saved where it is to be saved, where the library keeps tables. -/
structure PassSaves (setting : Setting) (a : Arguments) (w : Workspace) (prepared : Tree) : Prop where
  script : setting.hasScript
  behaviour : setting.behaviour = .runsScript
  keeps : setting.desk.runtime.tables.Keeps ((reportDirectory w.tree.home a).child Report.tablePath).text
  resolved : (exec (resolve a.outDirectory) w).1 = .ok ((Path.ofText a.outDirectory).absolute w.tree.home)
  makes : exec (prepare ((Path.ofText a.outDirectory).absolute w.tree.home) (reportFile w.tree.home a)
    (errorFile w.tree.home a)) w.tree = (.ok (), prepared)
  saved : ∃ r path saved,
    Script.Reports setting.desk (Options.ofArgs a.scriptArgs).1 (methodsFile w.tree.home a).text
      { w with tree := prepared } r ∧
    exec (Report.save setting.desk.runtime.tables (reportDirectory w.tree.home a).text r
      (some setting.desk.programName) (some (methodsFile w.tree.home a).text)) prepared = (.ok path, saved)

/-- The script saves the report of its pass, and so the launcher returns. -/
theorem run_returns (hw : w.tree.WellFormed) (ha : Arguments.ofList args = .ok a)
    (ready : Ready setting a w binary directory) (hmethods : '=' ∉ (methodsFile w.tree.home a).text.toList)
    (hpaths : LeavesPaths a) {prepared : Tree} (saves : PassSaves setting a w prepared) :
    (exec (run setting args) w).1 = .ok () := by
  obtain ⟨r, path, saved, hreports, hsave⟩ := saves.saved
  have hhome : prepared.home = w.tree.home := home_of_prepare saves.makes
  have hread := ofArgs_scriptArgs ha hmethods hpaths
  have hresolve : exec (resolve a.outDirectory) w = (.ok ((Path.ofText a.outDirectory).absolute w.tree.home), w) := by
    rw [← saves.resolved]
    exact Prod.ext rfl (exec_resolve_snd a.outDirectory w)
  rw [exec_run_ready ha ready, if_pos saves.script, exec_bind_ok hresolve, exec_launch_prepared saves.makes,
    saves.behaviour]
  dsimp only
  generalize startOf w.tree.home a binary (Path.ofText directory) = start
  have hnow : (Workspace.called { w with tree := prepared } [.start start]).tree.home = w.tree.home := hhome
  unfold started
  rw [exec_bind_ok (exec_resolve (null_notMem_of_probe ready.methods) _), hnow]
  -- The script reads the two paths that are handed to it, and its pass is that for the passed arguments.
  have hchooses : Script.Chooses setting.desk (scriptArgs w.tree.home a) (methodsFile w.tree.home a).text [] :=
    .given (by rw [hread]) (by rw [hread])
  have hdirectory : (Options.ofArgs (scriptArgs w.tree.home a)).1.reportDirectory =
      some (reportDirectory w.tree.home a).text := by rw [hread]
  have hreports' : Script.Reports setting.desk (Options.ofArgs (scriptArgs w.tree.home a)).1
      (methodsFile w.tree.home a).text (((Workspace.called { w with tree := prepared } [.start start])).called
        [.runScript setting.script (scriptArgs w.tree.home a)]) r := by
    rw [hread]
    obtain ⟨archive, methods, session, swept⟩ := hreports
    exact ⟨archive, methods, session,
      { found := swept.found
        loaded := swept.loaded
        functions := swept.functions
        types := swept.types
        known := swept.known
        returned := swept.returned }⟩
  obtain ⟨after, hrun, rfl⟩ := Script.run_returns hchooses hdirectory hreports' hsave
  obtain ⟨herror, hreport⟩ := looks_of_save saves.keeps hw hw.home saves.makes hsave
  exact exec_conclude (exec_runScript saves.behaviour hrun) herror hreport

end Completing

/-- The script reads the paths as the launcher writes them, and the other arguments as if there were no others.
No other arguments are ever handed to it. So if its pass reports and the report can be saved, the launcher
returns. -/
theorem launch_agrees {setting : Setting} {args : List String} {a : Arguments} {w : Workspace} {binary : Path}
    {directory : String} (ha : Arguments.ofList args = .ok a) (ready : Ready setting a w binary directory)
    (hmethods : '=' ∉ (methodsFile w.tree.home a).text.toList) (hpaths : LeavesPaths a) :
    Options.ofArgs (scriptArgs w.tree.home a) =
      ({ (Options.ofArgs a.scriptArgs).1 with
          methodsPath := some (methodsFile w.tree.home a).text
          reportDirectory := some (reportDirectory w.tree.home a).text
          help := false },
        (Options.ofArgs a.scriptArgs).2) ∧
    Session.Calls (handsOn setting.script (scriptArgs w.tree.home a)) w.session (exec (run setting args) w).2.session ∧
    ∀ prepared, w.tree.WellFormed → PassSaves setting a w prepared → (exec (run setting args) w).1 = .ok () := by
  refine ⟨ofArgs_scriptArgs ha hmethods hpaths, ?_, fun prepared hw saves =>
    run_returns hw ha ready hmethods hpaths saves⟩
  rw [exec_run_ready ha ready]
  split_ifs
  case neg => exact .of_eq rfl
  cases hresolve : exec (resolve a.outDirectory) w with
  | mk resolved w₁ =>
    cases resolved with
    | error stop =>
      have hsame := exec_resolve_snd a.outDirectory w
      rw [hresolve] at hsame
      rw [exec_bind_error hresolve]
      exact .of_eq (congrArg (·.session.calls) hsame)
    | ok outDirectory =>
      rw [exec_bind_ok hresolve, (exec_resolve_eq_ok hresolve).1]
      generalize startOf w.tree.home a binary (Path.ofText directory) = start
      cases hlaunch : exec (launch setting w.tree.home a start) w with
      | mk ended w' => exact launch_hands hlaunch

/-! ## A directory with blanks -/

/-- The arguments of a launch whose output directory has an equals sign in its name and blanks around it. -/
def spaced : List String :=
  ["lib.so", "m.json", "-o", " a=b ", "on_type_error=skip"]

/-- What these arguments say. -/
def spacedArguments : Arguments :=
  ⟨"lib.so", "m.json", " a=b ", true, ["on_type_error=skip"]⟩

/-- The tree when the output directory has been made. -/
def spacedTree : Tree :=
  (exec (prepare ((Path.ofText spacedArguments.outDirectory).absolute workshop.tree.home)
    (reportFile workshop.tree.home spacedArguments) (errorFile workshop.tree.home spacedArguments))
    workshop.tree).2

/-- The session when the archive is open. -/
def spacedSession : Session :=
  Script.opened ⟨"file:jni_all.gdt", host.desk.types⟩ workshop.session

/-- What the pass reports. -/
def spacedReport : Report :=
  Pass.reportOf spacedSession.typeOf [⟨"A.f", [], "jint", false⟩] spacedSession.functions

theorem spaced_ready : Ready host spacedArguments workshop ⟨"", ["lib.so"]⟩ "/host" :=
  ⟨by decide +kernel, by decide +kernel, by decide +kernel⟩

theorem spaced_leavesPaths : LeavesPaths spacedArguments := by
  intro arg harg key value hsplit
  have hskip : Options.split? "on_type_error=skip" = some ("on_type_error", "skip") := by decide +kernel
  rw [List.mem_singleton.1 harg, hskip] at hsplit
  cases hsplit
  decide

theorem spaced_reports : Script.Reports host.desk (Options.ofArgs spacedArguments.scriptArgs).1
    (methodsFile workshop.tree.home spacedArguments).text { workshop with tree := spacedTree } spacedReport :=
  ⟨⟨"file:jni_all.gdt", host.desk.types⟩, [⟨"A.f", [], "jint", false⟩], spacedSession,
    { found := ⟨_, rfl, by decide +kernel⟩
      loaded := by decide +kernel
      functions := rfl
      types := rfl
      known := rfl
      returned := by decide +kernel }⟩

theorem spaced_prepared : exec (prepare ((Path.ofText spacedArguments.outDirectory).absolute workshop.tree.home)
    (reportFile workshop.tree.home spacedArguments) (errorFile workshop.tree.home spacedArguments))
    workshop.tree = (.ok (), spacedTree) := by
  apply Prod.ext
  · decide +kernel
  · rfl

theorem spaced_saves : PassSaves host spacedArguments workshop spacedTree := by
  have hsave : (exec (Report.save host.desk.runtime.tables (reportDirectory workshop.tree.home spacedArguments).text
      spacedReport (some host.desk.programName) (some (methodsFile workshop.tree.home spacedArguments).text))
      spacedTree).1 =
      .ok (reportFile workshop.tree.home spacedArguments) := by
    decide +kernel
  cases hsaved : exec (Report.save host.desk.runtime.tables (reportDirectory workshop.tree.home spacedArguments).text
      spacedReport (some host.desk.programName) (some (methodsFile workshop.tree.home spacedArguments).text))
      spacedTree with
  | mk result saved =>
    rw [hsaved] at hsave
    obtain rfl : result = .ok (reportFile workshop.tree.home spacedArguments) := hsave
    exact ⟨rfl, rfl, Columnar.library_keeps (by decide +kernel), by decide +kernel, spaced_prepared, spacedReport, _,
      saved, spaced_reports, hsaved⟩

/-- The script reads the name of the directory as it is, and saves its report there. -/
theorem launch_agrees_spaced :
    Options.ofArgs (scriptArgs workshop.tree.home spacedArguments) =
        (⟨some "/w/m.json", some "/w/ a=b /report", none, .skip, false⟩, []) ∧
      (exec (run host spaced) workshop).1 = .ok () := by
  have ha : Arguments.ofList spaced = .ok spacedArguments := by decide +kernel
  obtain ⟨hread, -, hreturns⟩ := launch_agrees ha spaced_ready (by decide +kernel) spaced_leavesPaths
  refine ⟨hread.trans ?_, hreturns spacedTree (by decide) spaced_saves⟩
  decide +kernel

end JniSignatures.Launch
