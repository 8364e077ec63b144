import Mathlib
import JniSignatures.Proofs.Pass.Unhindered
import JniSignatures.Proofs.Report.Documents
import JniSignatures.Proofs.Script.Running
/-!
# How a run of the script goes

A run either declines to make a pass (`Declines`) or has a methods file for one (`Chooses`). Then it searches
for the archive (`Archive.Search`), loads the methods and makes the pass; `Sweeping` has one case for each stage
at which that stops, with the workspace in which it leaves things. What comes after, saving the report and
telling a failure, changes no function and calls nothing (`Ending`). `run_course` puts the stages together.

Until it saves a report a run does not touch the file tree. So for the files a run comes to one of two ends
(`run_cases`): either nothing has been saved, and at most a failure has been told in the error file; or the
pass has returned a report, which has been saved on the tree that was there at the start, and a failure to
save it is the failure of the script.
-/

namespace JniSignatures

/-! ## Calls and nothing else -/

/-- Calls have been made that change no function. -/
structure Session.Calling (made : List Call) (s t : Session) : Prop where
  functions : t.functions = s.functions
  calls : t.calls = s.calls ++ made

theorem Session.Calling.trans {made more : List Call} {s t u : Session} (h : Session.Calling made s t)
    (h' : Session.Calling more t u) : Session.Calling (made ++ more) s u :=
  ⟨h'.functions.trans h.functions, by rw [h'.calls, h.calls, List.append_assoc]⟩

/-- Neither functions nor calls are new. -/
theorem Session.Calling.of_eq {s t : Session} (hfunctions : t.functions = s.functions) (hcalls : t.calls = s.calls) :
    Session.Calling [] s t :=
  ⟨hfunctions, by rw [hcalls, List.append_nil]⟩

instance : IsPreorder Session (Session.Calling []) where
  refl _ := .of_eq rfl rfl
  trans _ _ _ h h' := h.trans h'

namespace Workspace

/-- The workspace after calls. -/
def called (w : Workspace) (made : List Call) : Workspace :=
  { w with session := { w.session with calls := w.session.calls ++ made } }

theorem called_nil (w : Workspace) : w.called [] = w := by
  simp [called]

theorem called_called (w : Workspace) (made more : List Call) : (w.called made).called more = w.called (made ++ more) := by
  simp [called]

end Workspace

open Workspace (Along)

theorem Job.exec_record {ε : Type} (call : Call) (w : Workspace) :
    exec (Job.record call : Job ε Unit) w = (.ok (), w.called [call]) :=
  rfl

/-! ## The search for the archive -/

namespace Archive

/-- The call that opens a file. -/
def openingCall (desk : Desk) (path : String) : Call :=
  if desk.service.isSome then .openInTool path else .openFile path

/-- The archive of a file that is opened. -/
def ofFile (desk : Desk) (path : String) : Archive :=
  ⟨(if desk.service.isSome then "service:" else "file:") ++ path, desk.types⟩

/-- The file to open, with the calls made to learn it. -/
inductive Choice (desk : Desk) (given : Option String) : String → List Call → Prop where
  | given {path : String} (h : given.filter (· ≠ "") = some path) : Choice desk given path []
  | inModule {path : String} (h : given.filter (· ≠ "") = none) (hmodule : desk.moduleFile = some path) :
    Choice desk given path [.findModuleFile moduleName standardFile]

/-- How the search for the archive ends in a tree, with the calls that it makes. -/
inductive Search (desk : Desk) (given : Option String) (t : Files.Tree) :
    Except Fault Archive → List Call → Prop where
  | found {archive : Archive} (hopen : findOpen desk.service standardName = some archive) :
    Search desk given t (.ok archive) []
  | notInModule (hopen : findOpen desk.service standardName = none) (hgiven : given.filter (· ≠ "") = none)
      (hmodule : desk.moduleFile = none) :
    Search desk given t (.error .notInModule) [.findModuleFile moduleName standardFile]
  | notFound {path : String} {asking : List Call} (hopen : findOpen desk.service standardName = none)
      (choice : Choice desk given path asking) (hfile : t.isFile path = false) :
    Search desk given t (.error (.notFound path)) asking
  | refused {path message : String} {asking : List Call} (hopen : findOpen desk.service standardName = none)
      (choice : Choice desk given path asking) (hfile : t.isFile path = true)
      (hrefusal : desk.openRefusal = some message) :
    Search desk given t (.error (.notOpened path message)) (asking ++ [openingCall desk path])
  | opened {path : String} {asking : List Call} (hopen : findOpen desk.service standardName = none)
      (choice : Choice desk given path asking) (hfile : t.isFile path = true) (hrefusal : desk.openRefusal = none) :
    Search desk given t (.ok (ofFile desk path)) (asking ++ [openingCall desk path])

section Search

variable {desk : Desk} {given : Option String}

theorem exec_choosePath {path : String} {asking : List Call} (h : Choice desk given path asking) (w : Workspace) :
    exec (choosePath desk given) w = (.ok path, w.called asking) := by
  unfold choosePath
  cases h with
  | given h =>
    rw [h, Workspace.called_nil]
    rfl
  | inModule h hmodule =>
    rw [h, hmodule]
    rfl

theorem exec_openPath (desk : Desk) (path : String) (w : Workspace) : exec (openPath desk path) w =
    (match desk.openRefusal with
      | some message => .error (.notOpened path message)
      | none => .ok (ofFile desk path), w.called [openingCall desk path]) := by
  unfold openPath
  rw [exec_bind_ok (Job.exec_record _ w)]
  cases desk.openRefusal with
  | some message => rfl
  | none => rfl

/-- A chosen file is looked for in the tree of the start. -/
theorem exec_acquire_choice {path : String} {asking : List Call} (hopen : findOpen desk.service standardName = none)
    (choice : Choice desk given path asking) (w : Workspace) : exec (acquire desk given) w =
      exec (if w.tree.isFile path then openPath desk path else throw (.notFound path)) (w.called asking) := by
  unfold acquire
  rw [hopen]
  dsimp only
  rw [exec_bind_ok (exec_choosePath choice w)]
  rfl

/-- The search does nothing but call. -/
theorem Search.exec_acquire {result : Except Fault Archive} {made : List Call} {w : Workspace}
    (h : Search desk given w.tree result made) : exec (acquire desk given) w = (result, w.called made) := by
  cases h with
  | found hopen =>
    unfold acquire
    rw [hopen, Workspace.called_nil]
    rfl
  | notInModule hopen hgiven hmodule =>
    unfold acquire choosePath
    rw [hopen, hgiven, hmodule]
    rfl
  | notFound hopen choice hfile =>
    rw [exec_acquire_choice hopen choice, hfile]
    rfl
  | refused hopen choice hfile hrefusal =>
    rw [exec_acquire_choice hopen choice, if_pos hfile, exec_openPath, Workspace.called_called, hrefusal]
  | opened hopen choice hfile hrefusal =>
    rw [exec_acquire_choice hopen choice, if_pos hfile, exec_openPath, Workspace.called_called, hrefusal]

/-- The search ends in one of its five ways. -/
theorem exists_search (desk : Desk) (given : Option String) (t : Files.Tree) :
    ∃ result made, Search desk given t result made := by
  cases hopen : findOpen desk.service standardName with
  | some archive => exact ⟨_, _, .found hopen⟩
  | none =>
    have chosen : ∀ {path asking}, Choice desk given path asking → ∃ result made, Search desk given t result made := by
      intro path asking choice
      cases hfile : t.isFile path with
      | false => exact ⟨_, _, .notFound hopen choice hfile⟩
      | true =>
        cases hrefusal : desk.openRefusal with
        | some message => exact ⟨_, _, .refused hopen choice hfile hrefusal⟩
        | none => exact ⟨_, _, .opened hopen choice hfile hrefusal⟩
    cases hgiven : given.filter (· ≠ "") with
    | some path => exact chosen (.given hgiven)
    | none =>
      cases hmodule : desk.moduleFile with
      | some path => exact chosen (.inModule hgiven hmodule)
      | none => exact ⟨_, _, .notInModule hopen hgiven hmodule⟩

end Search

end Archive

namespace Script

/-! ## The stages -/

section Stages

variable {desk : Desk} {options : Options} {methodsPath : String} {w w' : Workspace}

/-- The calls made with an archive after the pass: it is closed if it is the run's own. -/
def closingCalls (desk : Desk) (archive : Archive) : List Call :=
  if desk.service.isNone then [.close archive.label] else []

theorem exec_closing_called {α : Type} {archive : Archive} {job : Job Failure α} {result : Except Failure α}
    (h : exec job w = (result, w')) :
    exec (closing desk archive job) w = (result, w'.called (closingCalls desk archive)) := by
  rw [exec_closing h]
  unfold closingCalls
  split_ifs
  · rfl
  · rw [Workspace.called_nil]

/-- The way from the archive to the report. -/
def sweeping (desk : Desk) (options : Options) (methodsPath : String) : Job Failure Report := do
  let archive ← (Archive.acquire desk options.archive).adapt .archive
  closing desk archive (sweep (desk.runtime.depth .methods) archive options.policy methodsPath)

/-- How the way from the archive to the report ends, and the workspace that it leaves. -/
inductive Sweeping (desk : Desk) (options : Options) (methodsPath : String) (w : Workspace) :
    Except Failure Report → Workspace → Prop where
  | noArchive {fault : Archive.Fault} {made : List Call}
      (search : Archive.Search desk options.archive w.tree (.error fault) made) :
    Sweeping desk options methodsPath w (.error (.archive fault)) (w.called made)
  | noMethods {archive : Archive} {made : List Call} {fault : Method.LoadFault}
      (search : Archive.Search desk options.archive w.tree (.ok archive) made)
      (load : Method.load (desk.runtime.depth .methods) w.tree methodsPath = .error fault) :
    Sweeping desk options methodsPath w (.error (.methods fault))
      ({ w with session := opened archive (w.called made).session }.called (closingCalls desk archive))
  | swept {archive : Archive} {made : List Call} {methods : List Method} {result : Except ActionFault Report}
      {session : Session} (search : Archive.Search desk options.archive w.tree (.ok archive) made)
      (load : Method.load (desk.runtime.depth .methods) w.tree methodsPath = .ok methods)
      (pass : exec (Pass.run options.policy methods) (opened archive (w.called made).session) = (result, session)) :
    Sweeping desk options methodsPath w (result.mapError .action)
      ({ w with session := session }.called (closingCalls desk archive))

theorem sweeping_of_exec {result : Except Failure Report}
    (h : exec (sweeping desk options methodsPath) w = (result, w')) : Sweeping desk options methodsPath w result w' := by
  unfold sweeping at h
  obtain ⟨found, made, search⟩ := Archive.exists_search desk options.archive w.tree
  have hadapt : exec ((Archive.acquire desk options.archive).adapt Failure.archive) w =
      (found.mapError .archive, w.called made) := by rw [exec_adapt, search.exec_acquire]
  cases found with
  | error fault =>
    cases (exec_bind_error hadapt).symm.trans h
    exact .noArchive search
  | ok archive =>
    rw [exec_bind_ok hadapt] at h
    have hsweep := exec_sweep (desk.runtime.depth .methods) archive options.policy methodsPath (w.called made)
    rw [show (w.called made).tree = w.tree from rfl] at hsweep
    cases hload : Method.load (desk.runtime.depth .methods) w.tree methodsPath with
    | error fault =>
      rw [hload] at hsweep
      cases (exec_closing_called hsweep).symm.trans h
      exact .noMethods search hload
    | ok methods =>
      cases hpass : exec (Pass.run options.policy methods) (opened archive (w.called made).session) with
      | mk pass session =>
        rw [hload] at hsweep
        dsimp only at hsweep
        rw [hpass] at hsweep
        cases (exec_closing_called hsweep).symm.trans h
        exact .swept search hload hpass

theorem Sweeping.tree {result : Except Failure Report} (h : Sweeping desk options methodsPath w result w') :
    w'.tree = w.tree := by
  cases h <;> rfl

/-- A report comes from a pass for the methods and the types that are there. -/
theorem Sweeping.reports {r : Report} (h : Sweeping desk options methodsPath w (.ok r) w') :
    Reports desk options methodsPath w r := by
  generalize hresult : (.ok r : Except Failure Report) = result at h
  cases h with
  | noArchive => cases hresult
  | noMethods => cases hresult
  | @swept archive made methods result session search load pass =>
    cases result with
    | error fault => cases hresult
    | ok reported =>
      cases hresult
      exact ⟨archive, methods, opened archive (w.called made).session,
        { found := ⟨w, rfl, by rw [search.exec_acquire]⟩
          loaded := load
          functions := rfl
          types := rfl
          known := rfl
          returned := by rw [pass] }⟩

/-- The library keeps the table of a report where the options say that reports are to be saved. -/
def KeepsTables (desk : Desk) (options : Options) : Prop :=
  ∀ directory, options.reportDirectory = some directory →
    desk.runtime.tables.Keeps ((Files.Path.ofText directory).child Report.tablePath).text

/-- Saves what the pass reports, if a directory for it is set. -/
def saving (desk : Desk) (options : Options) (methodsPath : String) (r : Report) : Job Failure Unit :=
  match options.reportDirectory with
  | none => pure ()
  | some directory => do
    let path ← Job.onTree
      ((Report.save desk.runtime.tables directory r (some desk.programName) (some methodsPath)).adapt .save)
    Job.print ["Report written: " ++ path.text]

theorem runPass_eq (desk : Desk) (options : Options) (methodsPath : String) : runPass desk options methodsPath =
    Job.print ["[+] Import jni_all.h..."] >>= fun _ =>
      sweeping desk options methodsPath >>= saving desk options methodsPath := by
  unfold runPass sweeping
  rw [bind_assoc]
  rfl

end Stages

/-! ## The end -/

section End

variable {desk : Desk} {options : Options} {methodsPath : String} {w w' : Workspace}

/-- How a run ends that has come to a report or to a failure, in the workspace `w`. -/
inductive Ending (desk : Desk) (options : Options) (methodsPath : String) (w w' : Workspace) :
    Except Failure Report → Except Failure Unit → Prop where
  | told {failure : Failure} (tree : w'.tree = toldTree desk.runtime.trace options failure w.tree) :
    Ending desk options methodsPath w w' (.error failure) (.error failure)
  | kept {r : Report} (directory : options.reportDirectory = none) (tree : w'.tree = w.tree) :
    Ending desk options methodsPath w w' (.ok r) (.ok ())
  | saved {r : Report} {directory : String} {path : Files.Path} (hdirectory : options.reportDirectory = some directory)
      (save : exec (Report.save desk.runtime.tables directory r (some desk.programName) (some methodsPath)) w.tree =
        (.ok path, w'.tree)) :
    Ending desk options methodsPath w w' (.ok r) (.ok ())
  | unsaved {r : Report} {directory : String} {fault : Report.SaveFault} {tree : Files.Tree}
      (hdirectory : options.reportDirectory = some directory)
      (save : exec (Report.save desk.runtime.tables directory r (some desk.programName) (some methodsPath)) w.tree =
        (.error fault, tree))
      (tree : w'.tree = toldTree desk.runtime.trace options (.save fault) tree) :
    Ending desk options methodsPath w w' (.ok r) (.error (.save fault))

theorem saving_of_exec {r : Report} {outcome : Except Failure Unit}
    (h : exec (saving desk options methodsPath r) w = (outcome, w')) : Session.Calling [] w.session w'.session ∧
      (options.reportDirectory = none ∧ w'.tree = w.tree ∧ outcome = .ok () ∨
      ∃ directory saved, options.reportDirectory = some directory ∧
        exec (Report.save desk.runtime.tables directory r (some desk.programName) (some methodsPath)) w.tree =
          (saved, w'.tree) ∧
        outcome = (saved.map fun _ => ()).mapError .save) := by
  unfold saving at h
  cases hd : options.reportDirectory with
  | none =>
    rw [hd] at h
    cases h
    exact ⟨refl w.session, .inl ⟨rfl, rfl, rfl⟩⟩
  | some directory =>
    rw [hd] at h
    dsimp only at h
    cases hsave : exec (Report.save desk.runtime.tables directory r (some desk.programName) (some methodsPath)) w.tree with
    | mk saved tree =>
      have hkept := Job.exec_onTree_adapt (f := Failure.save) hsave
      cases saved with
      | error fault =>
        cases (exec_bind_error hkept).symm.trans h
        exact ⟨refl w.session, .inr ⟨directory, _, rfl, hsave, rfl⟩⟩
      | ok path =>
        cases (exec_bind_ok hkept).symm.trans h
        exact ⟨.of_eq rfl rfl, .inr ⟨directory, _, rfl, hsave, rfl⟩⟩

/-- The end of a pass is that of the whole, once a failure has been told. -/
theorem runTold_ends {outcome : Except Failure Unit}
    (h : exec (runPass desk options methodsPath) w = (outcome, w')) : ∃ w'',
      exec (runTold desk options methodsPath) w = (outcome, w'') ∧ Session.Calling [] w'.session w''.session ∧
        (outcome = .ok () → w''.tree = w'.tree) ∧
        ∀ failure, outcome = .error failure → w''.tree = toldTree desk.runtime.trace options failure w'.tree := by
  cases outcome with
  | ok => exact ⟨_, exec_runTold_ok h, .of_eq rfl rfl, fun _ => rfl, nofun⟩
  | error failure =>
    refine ⟨_, exec_runTold_error h, .of_eq rfl rfl, nofun, ?_⟩
    rintro _ ⟨⟩
    rfl

/-- A run for a methods file goes through the stages, and ends by their result. -/
theorem runTold_course {outcome : Except Failure Unit}
    (h : exec (runTold desk options methodsPath) w = (outcome, w')) : ∃ w₀ result w₁,
      w₀.tree = w.tree ∧ Session.Calling [] w.session w₀.session ∧ Sweeping desk options methodsPath w₀ result w₁ ∧
      Session.Calling [] w₁.session w'.session ∧ Ending desk options methodsPath w₁ w' result outcome := by
  cases hp : exec (runPass desk options methodsPath) w with
  | mk ended w₂ =>
  obtain ⟨w'', htold, hidle, hok, herror⟩ := runTold_ends hp
  cases htold.symm.trans h
  rw [runPass_eq] at hp
  rcases exec_bind_cases hp with ⟨failure, hprint, -⟩ | ⟨_, w₀, hprint, hp⟩
  · cases hprint
  cases hprint
  rcases exec_bind_cases hp with ⟨failure, hsweep, rfl⟩ | ⟨r, w₁, hsweep, hp⟩
  · refine ⟨_, _, _, ?_, ?_, sweeping_of_exec hsweep, hidle, .told (herror failure rfl)⟩
    · rfl
    · exact .of_eq rfl rfl
  · obtain ⟨hsaving, hcases⟩ := saving_of_exec hp
    refine ⟨_, _, w₁, ?_, ?_, sweeping_of_exec hsweep, hsaving.trans hidle, ?_⟩
    · rfl
    · exact .of_eq rfl rfl
    rcases hcases with ⟨hd, htree, rfl⟩ | ⟨directory, saved, hd, hsave, rfl⟩
    · exact .kept hd ((hok rfl).trans htree)
    · cases saved with
      | ok path => exact .saved hd (by rw [hsave, hok rfl])
      | error fault => exact .unsaved hd hsave (herror _ rfl)

end End

/-! ## The beginning -/

section Beginning

variable {desk : Desk} {args : List String} {methodsPath other : String} {made made' : List Call}
  {outcome ended : Except Failure Unit} {w w' : Workspace}

/-- The call that asks the user for the methods file. -/
def askingCall : Call :=
  .askFile "Select method argument file" "Open"

/-- Why a run makes no pass, how it then ends, and the calls that it has made. -/
inductive Declines (desk : Desk) (args : List String) : Except Failure Unit → List Call → Prop where
  | help (h : (Options.ofArgs args).1.help = true) : Declines desk args (.ok ()) []
  | headless (h : (Options.ofArgs args).1.help = false) (hmethods : (Options.ofArgs args).1.methodsPath = none)
      (hheadless : desk.headless = true) : Declines desk args (.ok ()) []
  | cancelled (h : (Options.ofArgs args).1.help = false) (hmethods : (Options.ofArgs args).1.methodsPath = none)
      (hheadless : desk.headless = false) (hchosen : desk.chosenFile = none) :
    Declines desk args (.error .noChoice) [askingCall]

/-- The methods file for which a run makes the pass, and the calls made to learn it. -/
inductive Chooses (desk : Desk) (args : List String) : String → List Call → Prop where
  | given {methodsPath : String} (h : (Options.ofArgs args).1.help = false)
      (hmethods : (Options.ofArgs args).1.methodsPath = some methodsPath) : Chooses desk args methodsPath []
  | asked {methodsPath : String} (h : (Options.ofArgs args).1.help = false)
      (hmethods : (Options.ofArgs args).1.methodsPath = none) (hheadless : desk.headless = false)
      (hchosen : desk.chosenFile = some methodsPath) : Chooses desk args methodsPath [askingCall]

theorem Declines.not_chooses (h : Declines desk args outcome made) : ¬ Chooses desk args methodsPath made' := by
  intro hc
  cases h <;> cases hc <;> simp_all

theorem Declines.unique (h : Declines desk args outcome made) (h' : Declines desk args ended made') :
    outcome = ended := by
  cases h <;> cases h' <;> simp_all

theorem Chooses.unique (h : Chooses desk args methodsPath made) (h' : Chooses desk args other made') :
    methodsPath = other := by
  cases h <;> cases h' <;> simp_all

theorem declines_or_chooses (desk : Desk) (args : List String) :
    (∃ outcome made, Declines desk args outcome made) ∨ ∃ methodsPath made, Chooses desk args methodsPath made := by
  cases hhelp : (Options.ofArgs args).1.help with
  | true => exact .inl ⟨_, _, .help hhelp⟩
  | false =>
    cases hmethods : (Options.ofArgs args).1.methodsPath with
    | some methodsPath => exact .inr ⟨_, _, .given hhelp hmethods⟩
    | none =>
      cases hheadless : desk.headless with
      | true => exact .inl ⟨_, _, .headless hhelp hmethods hheadless⟩
      | false =>
        cases hchosen : desk.chosenFile with
        | none => exact .inl ⟨_, _, .cancelled hhelp hmethods hheadless hchosen⟩
        | some methodsPath => exact .inr ⟨_, _, .asked hhelp hmethods hheadless hchosen⟩

theorem exec_run_of_declines (h : Declines desk args outcome made) (w : Workspace) :
    ∃ lines, exec (run desk args) w = (outcome, (w.printing lines).called made) := by
  unfold run
  rw [exec_bind_ok (Job.exec_print _ w)]
  cases h with
  | help hhelp =>
    rw [if_pos hhelp, Job.exec_print, Workspace.printing_printing]
    exact ⟨_, by rw [Workspace.called_nil]⟩
  | headless hhelp hmethods hheadless =>
    rw [if_neg (by simp [hhelp]), hmethods]
    dsimp only
    rw [if_pos hheadless, Job.exec_print, Workspace.printing_printing]
    exact ⟨_, by rw [Workspace.called_nil]⟩
  | cancelled hhelp hmethods hheadless hchosen =>
    rw [if_neg (by simp [hhelp]), hmethods]
    dsimp only
    rw [if_neg (by simp [hheadless]), exec_bind_error (exec_askMethods_none hchosen _)]
    exact ⟨_, rfl⟩

/-- The workspace in which the pass starts: the lines about the arguments are printed, and the user has been asked
for the methods file if need be. -/
def begun (args : List String) (made : List Call) (w : Workspace) : Workspace :=
  (w.printing (Options.ofArgs args).2).called made

theorem begun_tree (args : List String) (made : List Call) (w : Workspace) : (begun args made w).tree = w.tree :=
  rfl

theorem exec_run_of_chooses (h : Chooses desk args methodsPath made) (w : Workspace) :
    exec (run desk args) w = exec (runTold desk (Options.ofArgs args).1 methodsPath) (begun args made w) := by
  unfold run begun
  rw [exec_bind_ok (Job.exec_print _ w)]
  cases h with
  | given hhelp hmethods =>
    rw [if_neg (by simp [hhelp]), hmethods, Workspace.called_nil]
  | asked hhelp hmethods hheadless hchosen =>
    rw [if_neg (by simp [hhelp]), hmethods]
    dsimp only
    rw [if_neg (by simp [hheadless]), exec_bind_ok (exec_askMethods_some hchosen _)]
    rfl

/-- A run makes no pass, or goes on for a methods file. -/
theorem run_beginning {outcome : Except Failure Unit} (h : exec (run desk args) w = (outcome, w')) :
    (∃ made, Declines desk args outcome made ∧ w'.tree = w.tree ∧ Session.Calling made w.session w'.session) ∨
    ∃ methodsPath made w₀, Chooses desk args methodsPath made ∧ w₀.tree = w.tree ∧
      Session.Calling made w.session w₀.session ∧
      exec (runTold desk (Options.ofArgs args).1 methodsPath) w₀ = (outcome, w') := by
  rcases declines_or_chooses desk args with ⟨ended, made, hdeclines⟩ | ⟨methodsPath, made, hchooses⟩
  · obtain ⟨lines, hrun⟩ := exec_run_of_declines hdeclines w
    cases hrun.symm.trans h
    exact .inl ⟨made, hdeclines, rfl, rfl, rfl⟩
  · rw [exec_run_of_chooses hchooses] at h
    exact .inr ⟨methodsPath, made, begun args made w, hchooses, begun_tree args made w, ⟨rfl, rfl⟩, h⟩

/-- A run makes no pass, or goes through the stages for a methods file and ends by their result. -/
theorem run_course {outcome : Except Failure Unit} (h : exec (run desk args) w = (outcome, w')) :
    (∃ made, Declines desk args outcome made ∧ w'.tree = w.tree ∧ Session.Calling made w.session w'.session) ∨
    ∃ methodsPath made w₀ result w₁, Chooses desk args methodsPath made ∧ w₀.tree = w.tree ∧
      Session.Calling made w.session w₀.session ∧ Sweeping desk (Options.ofArgs args).1 methodsPath w₀ result w₁ ∧
      Session.Calling [] w₁.session w'.session ∧
      Ending desk (Options.ofArgs args).1 methodsPath w₁ w' result outcome := by
  rcases run_beginning h with hdeclines | ⟨methodsPath, made, w₀, hchooses, htree, hcalling, h⟩
  · exact .inl hdeclines
  · obtain ⟨w₁, result, w₂, htree', hidle, hsweeping, hidle', hending⟩ := runTold_course h
    have hcalling' := hcalling.trans hidle
    rw [List.append_nil] at hcalling'
    exact .inr ⟨methodsPath, made, w₁, result, w₂, hchooses, htree'.trans htree, hcalling', hsweeping, hidle', hending⟩

end Beginning

/-! ## Runs that save a report -/

section Reporting

variable {desk : Desk} {args : List String} {options : Options} {methodsPath : String} {w w' : Workspace} {r : Report}

/-- A pass lists no more names than there are functions. -/
theorem Reports.namesWithin (h : Reports desk options methodsPath w r) :
    r.NamesWithin w.session.functions.length := by
  obtain ⟨archive, methods, session, swept⟩ := h
  have hrun : exec (Pass.run options.policy methods) session =
      (.ok r, (exec (Pass.run options.policy methods) session).2) := by rw [← swept.returned]
  obtain ⟨rfl, -⟩ := Pass.reached_of_return hrun
  rw [← swept.functions]
  have hcount := Inventory.length_nativeNames_add_ignored session.functions
  have hsymbols : session.functions.countP (fun f => Symbol.isSymbol f.name) ≤ session.functions.length :=
    List.countP_le_length
  refine
    { indexed := (Inventory.length_indexed_le session.functions).trans (by omega)
      ignored := by show (Inventory.ofFunctions session.functions).ignored.length ≤ _; omega
      onLoadModified := ?_ }
  rw [Pass.reportOf, List.length_replicate, Inventory.length_onLoad]
  exact List.countP_le_length

/-- A pass ends alike in all sessions with the same functions and types. -/
theorem result_congr (policy : Policy) (methods : List Method) {s t : Session} (htypes : t.typeOf = s.typeOf)
    (hfunctions : t.functions = s.functions) :
    (exec (Pass.run policy methods) t).1 = (exec (Pass.run policy methods) s).1 := by
  obtain ⟨result, functions, hends, -⟩ := Pass.exists_course policy s.typeOf methods s.functions
  obtain ⟨_, hs, -⟩ := hends s rfl rfl
  obtain ⟨_, ht, -⟩ := hends t htypes hfunctions
  rw [hs, ht]

/-- What the pass reports does not depend on what has been called and printed before. -/
theorem Sweeping.of_reports {result : Except Failure Report} (h : Sweeping desk options methodsPath w' result w)
    {before : Workspace} (hreports : Reports desk options methodsPath before r) (htree : w'.tree = before.tree)
    (hfunctions : w'.session.functions = before.session.functions) : result = .ok r := by
  obtain ⟨archive, methods, session, swept⟩ := hreports
  obtain ⟨asked, hasked, hfound⟩ := swept.found
  -- Both searches are in one tree, so they end alike.
  have hsearch : ∀ {found made}, Archive.Search desk options.archive w'.tree found made → found = .ok archive := by
    intro found made search
    rw [htree, ← hasked] at search
    rw [search.exec_acquire] at hfound
    exact hfound
  cases h with
  | noArchive search => cases hsearch search
  | noMethods search load =>
    rw [htree, swept.loaded] at load
    cases load
  | @swept _ made _ result session' search load pass =>
    rw [htree, swept.loaded] at load
    cases load
    cases hsearch search
    have htypes : (opened archive (w'.called made).session).typeOf = session.typeOf := by
      unfold Session.typeOf
      rw [swept.known, swept.types]
      rfl
    have hsame := result_congr options.policy methods htypes (hfunctions.trans swept.functions.symm)
    rw [pass, swept.returned] at hsame
    rw [show result = .ok r from hsame]
    rfl

/-- If the pass reports and the report can be saved, the script returns, and has done no more to the files. -/
theorem run_returns {directory : String} {path : Files.Path} {saved : Files.Tree}
    (hchooses : Chooses desk args methodsPath []) (hdirectory : (Options.ofArgs args).1.reportDirectory = some directory)
    (hreports : Reports desk (Options.ofArgs args).1 methodsPath w r)
    (hsave : exec (Report.save desk.runtime.tables directory r (some desk.programName) (some methodsPath)) w.tree =
      (.ok path, saved)) :
    ∃ w', exec (run desk args) w = (.ok (), w') ∧ w'.tree = saved := by
  cases hrun : exec (run desk args) w with
  | mk outcome w' =>
  rcases run_course hrun with ⟨made, hdeclines, -⟩ |
    ⟨other, made, w₀, result, w₁, hchooses', htree, hcalling, hsweeping, -, hending⟩
  · exact absurd hchooses hdeclines.not_chooses
  obtain rfl := hchooses.unique hchooses'
  obtain rfl := hsweeping.of_reports hreports htree hcalling.functions
  have htree' : w₁.tree = w.tree := by
    rw [hsweeping.tree, htree]
  rw [← htree'] at hsave
  cases hending with
  | kept hnone =>
    rw [hdirectory] at hnone
    cases hnone
  | saved hd hsave' =>
    rw [hdirectory] at hd
    cases hd
    rw [hsave] at hsave'
    cases hsave'
    exact ⟨w', rfl, rfl⟩
  | unsaved hd hsave' =>
    rw [hdirectory] at hd
    cases hd
    rw [hsave] at hsave'
    cases hsave'

end Reporting

end Script

end JniSignatures
