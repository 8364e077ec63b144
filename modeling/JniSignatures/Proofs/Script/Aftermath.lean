import Mathlib
import JniSignatures.Main
import JniSignatures.Proofs.Columnar.Keeping
import JniSignatures.Proofs.Report.Leaving
import JniSignatures.Proofs.Script.Telling
/-!
# What a run leaves

A run that comes to a pass prints one notice, at its end. A failure of the pass is told, and takes nothing from what
an earlier run has reported; a report is of the run that has returned, and nothing is told then (`run_tells`). But
a message with a surrogate in it is lost, though the file for it can be written (`surrogate_untold`). The library is
relied on to keep the table of a report in the directory for it, and the number of functions is taken to be
short enough to be written, as that of any list in memory is.
-/

namespace JniSignatures

open Files (Content Location Tree)

namespace Script

open Workspace (Along)

/-! ## What the pass prints and does to the files -/

section Passing

variable {desk : Desk} {options : Options} {methodsPath : String} {w w' : Workspace} {outcome : Except Failure Unit}

theorem Sweeping.prints {result : Except Failure Report} (h : Sweeping desk options methodsPath w result w') :
    Session.Prints w.session w'.session := by
  cases h with
  | noArchive => exact .of_eq rfl
  | noMethods => exact .of_eq rfl
  | swept search load pass =>
    obtain ⟨lines, hprinted, hlines⟩ := Pass.prints_of_exec pass
    exact ⟨lines, hprinted, hlines⟩

theorem saving_prints (desk : Desk) (options : Options) (methodsPath : String) (r : Report) :
    Moves (Along (Tree.Gains fun _ _ => True) Session.Prints) (saving desk options methodsPath r) := by
  unfold saving
  split
  · exact Moves.pure ()
  · refine Moves.bind (Job.onTree_moves fun _ _ _ _ _ => .inr trivial) fun path => Job.print_moves fun s => ?_
    refine ⟨_, rfl, List.forall_mem_singleton.2 ?_⟩
    rw [Text.ofString_append]
    exact not_isNotice_append (by decide) _

/-- How the pass ends, and what it does to the files. -/
inductive Passing (desk : Desk) (options : Options) (methodsPath : String) (w w' : Workspace) :
    Except Failure Unit → Prop where
  /-- There is no report, and the files are as they were. -/
  | failed {failure : Failure} (tree : w'.tree = w.tree) : Passing desk options methodsPath w w' (.error failure)
  /-- There is no directory for the report. -/
  | kept {r : Report} (reports : Reports desk options methodsPath w r) (hdirectory : options.reportDirectory = none)
      (tree : w'.tree = w.tree) : Passing desk options methodsPath w w' (.ok ())
  | saved {r : Report} {directory : String} {path : Files.Path} (reports : Reports desk options methodsPath w r)
      (hdirectory : options.reportDirectory = some directory)
      (save : exec (Report.save desk.runtime.tables directory r (some desk.programName) (some methodsPath)) w.tree =
        (.ok path, w'.tree)) :
      Passing desk options methodsPath w w' (.ok ())
  | unsaved {r : Report} {directory : String} {fault : Report.SaveFault}
      (reports : Reports desk options methodsPath w r) (hdirectory : options.reportDirectory = some directory)
      (save : exec (Report.save desk.runtime.tables directory r (some desk.programName) (some methodsPath)) w.tree =
        (.error fault, w'.tree)) :
      Passing desk options methodsPath w w' (.error (.save fault))

/-- The pass ends in one of four ways, and in none of them is a notice printed. -/
theorem passing_of_exec (h : exec (runPass desk options methodsPath) w = (outcome, w')) :
    Passing desk options methodsPath w w' outcome ∧ Session.Prints w.session w'.session := by
  have hfirst : Session.Prints w.session (w.printing ["[+] Import jni_all.h..."]).session :=
    ⟨_, rfl, by decide⟩
  rw [runPass_eq, exec_bind_ok (Job.exec_print _ w)] at h
  rcases exec_bind_cases h with ⟨failure, hsweep, rfl⟩ | ⟨r, w₁, hsweep, hsave⟩
  · have hsweeping := sweeping_of_exec hsweep
    exact ⟨.failed hsweeping.tree, trans_of Session.Prints hfirst hsweeping.prints⟩
  · have hsweeping := sweeping_of_exec hsweep
    have hprints := trans_of Session.Prints hfirst hsweeping.prints
    have hreports : Reports desk options methodsPath w r := hsweeping.reports.congr rfl rfl
    refine ⟨?_, trans_of Session.Prints hprints ((saving_prints desk options methodsPath r).of_exec hsave).2⟩
    obtain ⟨-, hcases⟩ := saving_of_exec hsave
    rw [hsweeping.tree, Workspace.printing_tree] at hcases
    rcases hcases with ⟨hnone, htree, rfl⟩ | ⟨directory, saved, hdirectory, hsaved, hend⟩
    · exact .kept hreports hnone htree
    · cases saved with
      | ok path =>
        cases hend
        exact .saved hreports hdirectory hsaved
      | error fault =>
        cases hend
        exact .unsaved hreports hdirectory hsaved

/-- Without a directory for the report the pass touches no file. -/
theorem Passing.tree (h : Passing desk options methodsPath w w' outcome) (hnone : options.reportDirectory = none) :
    w'.tree = w.tree := by
  cases h with
  | failed htree => exact htree
  | kept _ _ htree => exact htree
  | saved _ hdirectory =>
    rw [hnone] at hdirectory
    cases hdirectory
  | unsaved _ hdirectory =>
    rw [hnone] at hdirectory
    cases hdirectory

/-- A pass that fails leaves a report as it was. -/
theorem Passing.report_of_error {failure : Failure} (h : Passing desk options methodsPath w w' (.error failure))
    (keeps : KeepsTables desk options) (hcount : w.session.functions.length < 10 ^ Json.maxIntDigits)
    {place : Location} (hname : place.getLast? = some Report.fileName) :
    w'.tree.content? place = w.tree.content? place := by
  cases h with
  | failed htree => rw [htree]
  | unsaved hreports hdirectory hsave =>
    exact Report.report_of_save_error (keeps _ hdirectory) hreports.namesWithin hcount hsave hname

/-- When the pass returns, an error file is as it was. -/
theorem Passing.errorFile_of_ok (h : Passing desk options methodsPath w w' (.ok ())) (keeps : KeepsTables desk options)
    {place : Location} (hname : place.getLast? = some errorFileName) :
    w'.tree.content? place = w.tree.content? place := by
  cases h with
  | kept _ _ htree => rw [htree]
  | saved _ hdirectory hsave =>
    refine (Report.alters_of_save (keeps _ hdirectory) hsave place).resolve_right ?_
    rintro (hfacts | hlast)
    · exact Report.not_isOfFacts hname (by decide) hfacts
    · rw [hname] at hlast
      exact absurd hlast (by decide)

/-- A pass that returns has left its report in the directory for it. -/
theorem Passing.report_of_ok (h : Passing desk options methodsPath w w' (.ok ())) {directory : String}
    (hdirectory : options.reportDirectory = some directory) : ∃ r place, Reports desk options methodsPath w r ∧
      w'.tree.Holds ((Files.Path.ofText directory).child Report.fileName).text place
        (.ofText (Json.document (r.document (some desk.programName) (some methodsPath)))) := by
  cases h with
  | kept _ hnone =>
    rw [hdirectory] at hnone
    cases hnone
  | @saved r other path hreports hother hsave =>
    obtain rfl : directory = other := Option.some.inj (hdirectory.symm.trans hother)
    obtain ⟨-, hwritten⟩ := Report.written_of_save hsave
    obtain ⟨place, hholds⟩ := hwritten.report
    exact ⟨r, place, hreports, hholds⟩

end Passing

/-! ## The whole -/

/-- What a run leaves whose pass has failed in the workspace `failed`. -/
structure Told (options : Options) (failure : Failure) (w failed w' : Workspace) : Prop where
  /-- The failure is noted in the end, and nothing else is. -/
  printed : ∃ lines, w'.session.printed = w.session.printed ++ (lines ++ [(failureNotice options : Text)]) ∧
    (∀ line ∈ lines, ¬ IsNotice line) ∧ (completion : Text) ∉ lines ++ [(failureNotice options : Text)]
  /-- The report is as it was. -/
  report : ∀ place, place.getLast? = some Report.fileName → w'.tree.content? place = w.tree.content? place
  /-- Without a directory for the report no file is touched. -/
  untouched : options.reportDirectory = none → w'.tree = w.tree
  /-- If the error file can be written, it tells of the failure. -/
  account : ∀ directory, options.reportDirectory = some directory →
    failed.tree.Creatable (Files.joinText directory errorFileName) →
    ∃ place content, w'.tree.Holds (Files.joinText directory errorFileName) place content ∧ Tells content failure

/-- What a run leaves whose pass has returned. -/
structure Completed (desk : Desk) (options : Options) (methodsPath : String) (w w' : Workspace) : Prop where
  printed : ∃ lines, w'.session.printed = w.session.printed ++ (lines ++ [(completion : Text)]) ∧
    ∀ line ∈ lines, ¬ IsNotice line
  /-- What an earlier run has told is still there. -/
  errorFile : ∀ place, place.getLast? = some errorFileName → w'.tree.content? place = w.tree.content? place
  untouched : options.reportDirectory = none → w'.tree = w.tree
  /-- The report is that of this run. -/
  report : ∀ directory, options.reportDirectory = some directory → ∃ r place, Reports desk options methodsPath w r ∧
    w'.tree.Holds ((Files.Path.ofText directory).child Report.fileName).text place
      (.ofText (Json.document (r.document (some desk.programName) (some methodsPath))))

section Whole

variable {desk : Desk} {args : List String} {methodsPath : String} {made : List Call} {outcome : Except Failure Unit}
  {failure : Failure} {w ended : Workspace}

theorem begun_prints (args : List String) (made : List Call) (w : Workspace) :
    Session.Prints w.session (begun args made w).session :=
  ⟨_, rfl, List.forall_mem_map.2 (Options.not_isNotice_of_ofArgs args)⟩

/-- With a notice at the end, the lines of the run are those before it, none of which is one, and the notice. -/
theorem printed_of_runPass
    (h : exec (runPass desk (Options.ofArgs args).1 methodsPath) (begun args made w) = (outcome, ended))
    (notice : Text) : ∃ lines, ended.session.printed ++ [notice] = w.session.printed ++ (lines ++ [notice]) ∧
      ∀ line ∈ lines, ¬ IsNotice line := by
  obtain ⟨lines, hprinted, hlines⟩ := trans_of Session.Prints (begun_prints args made w) (passing_of_exec h).2
  exact ⟨lines, by rw [hprinted, List.append_assoc], hlines⟩

theorem told_of_runPass
    (keeps : KeepsTables desk (Options.ofArgs args).1) (hcount : w.session.functions.length < 10 ^ Json.maxIntDigits)
    (h : exec (runPass desk (Options.ofArgs args).1 methodsPath) (begun args made w) = (.error failure, ended)) :
    Told (Options.ofArgs args).1 failure w ended
      (told desk.runtime.trace (Options.ofArgs args).1 failure ended) := by
  constructor
  · obtain ⟨lines, hprinted, hlines⟩ := printed_of_runPass h (failureNotice (Options.ofArgs args).1)
    refine ⟨lines, hprinted, hlines, ?_⟩
    rw [List.mem_append, List.mem_singleton, not_or]
    exact ⟨fun hm => hlines _ hm (by decide), fun h => completion_ne_failureNotice _ (Text.ofString_injective h)⟩
  · intro place hname
    have hother : place.getLast? ≠ some errorFileName := by
      rw [hname]
      decide
    rw [told_tree, content_toldTree _ _ failure ended.tree hother, ← begun_tree args made w]
    exact (passing_of_exec h).1.report_of_error keeps hcount hname
  · intro hnone
    rw [told_tree, toldTree, hnone, ← begun_tree args made w]
    exact (passing_of_exec h).1.tree hnone
  · intro directory hdirectory hcreatable
    obtain ⟨place, hholds⟩ :=
      holds_toldTree hdirectory (Options.reportDirectory_ne_empty hdirectory) failure hcreatable
    exact ⟨place, _, hholds, tells_account desk.runtime.trace failure⟩

theorem completed_of_runPass (keeps : KeepsTables desk (Options.ofArgs args).1)
    (h : exec (runPass desk (Options.ofArgs args).1 methodsPath) (begun args made w) = (.ok (), ended)) :
    Completed desk (Options.ofArgs args).1 methodsPath w (ended.printing [completion]) := by
  constructor
  · exact printed_of_runPass h completion
  · intro place hname
    rw [Workspace.printing_tree, ← begun_tree args made w]
    exact (passing_of_exec h).1.errorFile_of_ok keeps hname
  · intro hnone
    rw [Workspace.printing_tree, ← begun_tree args made w]
    exact (passing_of_exec h).1.tree hnone
  · intro directory hdirectory
    obtain ⟨r, place, hreports, hholds⟩ := (passing_of_exec h).1.report_of_ok hdirectory
    exact ⟨r, place, hreports.congr rfl rfl, hholds⟩

/-- A run that comes to a pass ends as the pass does. If that fails, the failure is told and the report of an earlier
run is as it was; if it returns, the report is that of this run and nothing is told. -/
theorem run_tells (keeps : KeepsTables desk (Options.ofArgs args).1)
    (hcount : w.session.functions.length < 10 ^ Json.maxIntDigits) (hchooses : Chooses desk args methodsPath made)
    (hpass : exec (runPass desk (Options.ofArgs args).1 methodsPath) (begun args made w) = (outcome, ended)) :
    ∃ w', exec (run desk args) w = (outcome, w') ∧
      (∀ failure, outcome = .error failure →
        Told (Options.ofArgs args).1 failure w ended w') ∧
      (outcome = .ok () → Completed desk (Options.ofArgs args).1 methodsPath w w') := by
  rw [exec_run_of_chooses hchooses]
  cases outcome with
  | error failure =>
    refine ⟨_, exec_runTold_error hpass, ?_, nofun⟩
    rintro _ ⟨⟩
    exact told_of_runPass keeps hcount hpass
  | ok => exact ⟨_, exec_runTold_ok hpass, nofun, fun _ => completed_of_runPass keeps hpass⟩

end Whole

/-! ## A type that is missing -/

/-- A host with the types of one method. -/
def plainDesk : Desk :=
  { programName := "lib.so", headless := true, tool := .absent
    types := [("JNIEnv *", "E"), ("jobject", "O"), ("jint", "I")]
    moduleFile := some "jni_all.gdt", openRefusal := none, closeRefusal := none, chosenFile := none
    runtime := CommandLine.runtime }

/-- A native function, the archive, a methods file with one method, and what earlier runs have left: a report and an
error file, both of them empty. -/
def office (returnType : Text) : Workspace :=
  { session :=
      { functions := [⟨"Java_A_f", none, [], "undefined", none⟩], types := [], known := [], calls := [], printed := [] }
    tree := ⟨["w"],
      [(["w", "jni_all.gdt"], .file (.bytes []) false),
        (["w", "m.json"], .file (.ofText (Json.document (.object [("methods", .array
          [.object [("methodName", .string "A.f"), ("returnType", .string returnType)]])]))) false),
        (["w", "e"], .directory), (["w", "e", "report.json"], .file (.bytes []) false),
        (["w", "e", "apply_error.txt"], .file (.bytes []) false)]⟩
    complaints := [] }

/-- The archive lacks a type. The failure is told beside the report of the earlier run. -/
theorem run_tells_missing_type :
    let args := ["m.json", "report_dir=e"]
    let failure : Failure := .action (.typeMissing "jlong" "/jni_all.h/jlong")
    let told := "Traceback (most recent call last):\n  the calls are not told\n" ++
      "jni_errors.TypeResolutionError: type not found in catalog: jlong (/jni_all.h/jlong)\n"
    KeepsTables plainDesk (Options.ofArgs args).1 ∧
      (office "jlong").session.functions.length < 10 ^ Json.maxIntDigits ∧
      Chooses plainDesk args "m.json" [] ∧ ∃ failed w',
        exec (runPass plainDesk (Options.ofArgs args).1 "m.json") (begun args [] (office "jlong")) =
          (.error failure, failed) ∧
        exec (run plainDesk args) (office "jlong") = (.error failure, w') ∧
        Told (Options.ofArgs args).1 failure (office "jlong") failed w' ∧
        w'.tree.read "e/report.json" = .ok (.bytes []) ∧
        w'.tree.read "e/apply_error.txt" = .ok (.ofText told.toList) := by
  intro args failure told
  have keeps : KeepsTables plainDesk (Options.ofArgs args).1 := by
    intro directory hdirectory
    obtain rfl : directory = "e" := by
      rw [show (Options.ofArgs args).1.reportDirectory = some "e" by decide +kernel] at hdirectory
      exact (Option.some.inj hdirectory).symm
    exact Columnar.library_keeps (by decide +kernel)
  have hcount : (office "jlong").session.functions.length < 10 ^ Json.maxIntDigits :=
    Nat.one_lt_pow (by decide) (by decide)
  have hchooses : Chooses plainDesk args "m.json" [] := .given (by decide +kernel) (by decide +kernel)
  have hfails : (exec (runPass plainDesk (Options.ofArgs args).1 "m.json") (begun args [] (office "jlong"))).1 =
      .error failure := by decide +kernel
  have hpass : exec (runPass plainDesk (Options.ofArgs args).1 "m.json") (begun args [] (office "jlong")) =
      (.error failure, (exec (runPass plainDesk (Options.ofArgs args).1 "m.json") (begun args [] (office "jlong"))).2) := by
    rw [← hfails]
  obtain ⟨w', hrun, htold, -⟩ := run_tells keeps hcount hchooses hpass
  have hfiles : (exec (run plainDesk args) (office "jlong")).2.tree.read "e/report.json" = .ok (.bytes []) ∧
      (exec (run plainDesk args) (office "jlong")).2.tree.read "e/apply_error.txt" =
        .ok (.ofText told.toList) := by decide +kernel
  rw [hrun] at hfiles
  exact ⟨keeps, hcount, hchooses, _, w', hpass, hrun, htold failure rfl, hfiles⟩

/-- A text that is no string. -/
def loneSurrogate : Text :=
  ⟨[⟨0xD800, by decide⟩]⟩

/-- The type that the archive lacks has a surrogate for its name. The error file can be written, the message is a
single line, and yet the file is empty in the end. -/
theorem surrogate_untold :
    let args := ["m.json", "report_dir=e"]
    let failure : Failure := .action (.typeMissing loneSurrogate ("/jni_all.h/" ++ loneSurrogate))
    (exec (run plainDesk args) (office loneSurrogate)).1 = .error failure ∧
      failure.message ≠ "" ∧ CodePoint.ofChar '\n' ∉ failure.message.points ∧
      (office loneSurrogate).tree.Creatable (Files.joinText "e" errorFileName) ∧
      (exec (run plainDesk args) (office loneSurrogate)).2.tree.read "e/apply_error.txt" = .ok (.ofText []) := by
  intro args failure
  have hcreatable := (@writeError_returns_iff plainDesk.runtime.trace "e" (office loneSurrogate).tree (by decide)
    failure).1 (by decide +kernel)
  exact ⟨by decide +kernel, by decide +kernel, by decide +kernel, hcreatable, by decide +kernel⟩

end Script

end JniSignatures
