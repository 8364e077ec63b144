import Mathlib
import JniSignatures.Launch.Run
import JniSignatures.Proofs.Script.Running
/-!
# What a launch does before and after the script

A launch that returns has found all that it needs in order (`run_eq_ok`). Then it has removed what stood
where the report and the error file are looked for (`node?_of_prepare`), has had the script run once or not
at all (`runScript_cases`), and has found no error file afterwards but a report (`launch_eq_ok`).
-/

namespace JniSignatures.Launch

open Files (Content FileM Location Path PlainName Tree)

/-! ## What the launcher hands on -/

/-- The directory into which the launcher has the report saved. -/
def reportDirectory (home : Location) (a : Arguments) : Path :=
  ((Path.ofText a.outDirectory).absolute home).child "report"

def reportFile (home : Location) (a : Arguments) : Path :=
  (reportDirectory home a).child Report.fileName

def errorFile (home : Location) (a : Arguments) : Path :=
  (reportDirectory home a).child Script.errorFileName

/-- The arguments of the script. -/
def scriptArgs (home : Location) (a : Arguments) : List String :=
  ((Path.ofText a.methods).absolute home).text :: ("report_dir=" ++ (reportDirectory home a).text) :: a.scriptArgs

/-- How the host is started. -/
def startOf (home : Location) (a : Arguments) (binary installDirectory : Path) : Start where
  binary := binary.text
  projectDirectory := (((Path.ofText a.outDirectory).absolute home).child "ghidra_project").text
  projectName := binary.stem
  analyze := a.analyze
  programName := binary.name
  installDirectory := installDirectory.text

/-- What is left of a launch when all that it needs has been found in order. -/
def launch (setting : Setting) (home : Location) (a : Arguments) (start : Start) : Job Stop Unit := do
  let outDirectory := (Path.ofText a.outDirectory).absolute home
  Job.onTree ((prepare outDirectory (reportFile home a) (errorFile home a)).adapt .files)
  Job.record (.start start)
  match setting.behaviour with
  | .refusesStart message => throw (.refused message)
  | _ => pure ()
  let methodsFile ← resolve a.methods
  runScript setting (methodsFile.text :: ("report_dir=" ++ (reportDirectory home a).text) :: a.scriptArgs)
  Job.record .stop
  if ← isFile (errorFile home a) then giveUp ["JNI Lens pass failed; see " ++ (errorFile home a).text]
  if !(← isFile (reportFile home a)) then giveUp ["JNI Lens pass failed; missing " ++ (reportFile home a).text]
  Job.print ["JNI Lens report: " ++ (reportFile home a).text]

section Paths

variable {home : Location}

theorem reportDirectory_direct (hhome : ∀ name ∈ home, PlainName name) (a : Arguments) :
    (reportDirectory home a).Direct := by
  have hout := (Path.ofText_wellFormed a.outDirectory).absolute hhome
  exact hout.child (show Path.ofText "report" = ⟨"", ["report"]⟩ by decide) (by decide)

theorem reportFile_direct (hhome : ∀ name ∈ home, PlainName name) (a : Arguments) : (reportFile home a).Direct :=
  (reportDirectory_direct hhome a).child (show Path.ofText Report.fileName = ⟨"", [Report.fileName]⟩ by decide)
    (by decide)

theorem reportFile_parts (home : Location) (a : Arguments) :
    (reportFile home a).parts = (reportDirectory home a).parts ++ [Report.fileName] := by
  rw [reportFile, Path.child_eq (show Path.ofText Report.fileName = ⟨"", [Report.fileName]⟩ by decide)]

theorem errorFile_direct (hhome : ∀ name ∈ home, PlainName name) (a : Arguments) : (errorFile home a).Direct :=
  (reportDirectory_direct hhome a).child
    (show Path.ofText Script.errorFileName = ⟨"", [Script.errorFileName]⟩ by decide) (by decide)

theorem errorFile_parts (home : Location) (a : Arguments) :
    (errorFile home a).parts = (reportDirectory home a).parts ++ [Script.errorFileName] := by
  rw [errorFile, Path.child_eq (show Path.ofText Script.errorFileName = ⟨"", [Script.errorFileName]⟩ by decide)]

end Paths

/-! ## The steps of a launch that returns -/

section Steps

variable {w w' : Workspace}

theorem giveUp_fails {α : Type} {lines : List String} {x : α} : exec (giveUp lines) w ≠ (.ok x, w') := by
  intro h
  obtain ⟨_, _, -, hthrow⟩ := exec_bind_eq_ok h
  cases hthrow

theorem exec_isFile (path : Path) (w : Workspace) :
    exec (isFile path) w = ((w.tree.probeFile path).mapError .files, w) :=
  Job.exec_ofExcept w _

theorem exec_isFile_eq_ok {path : Path} {isThere : Bool} (h : exec (isFile path) w = (.ok isThere, w')) :
    w' = w ∧ w.tree.probeFile path = .ok isThere := by
  rw [exec_isFile] at h
  cases hp : w.tree.probeFile path with
  | error fault => rw [hp] at h; cases h
  | ok found => rw [hp] at h; cases h; exact ⟨rfl, rfl⟩

theorem exec_findBinary_eq_ok {searchPath name : String} {path : Path}
    (h : exec (findBinary searchPath name) w = (.ok path, w')) : w' = w := by
  obtain ⟨isThere, _, hfile, h⟩ := exec_bind_eq_ok h
  obtain ⟨rfl, -⟩ := exec_isFile_eq_ok hfile
  cases isThere with
  | true =>
    cases h
    rfl
  | false =>
    obtain ⟨_, _, hget, h⟩ := exec_bind_eq_ok h
    cases hget
    split at h
    · cases h
      rfl
    · exact absurd h giveUp_fails

theorem exec_resolve_eq_ok {text : String} {path : Path} (h : exec (resolve text) w = (.ok path, w')) :
    w' = w ∧ path = (Path.ofText text).absolute w.tree.home := by
  unfold resolve at h
  dsimp only at h
  split_ifs at h
  · obtain ⟨_, _, hthrow, -⟩ := exec_bind_eq_ok h
    cases hthrow
  · cases h
    exact ⟨rfl, rfl⟩

theorem exec_discard_eq_ok {path : Path} {t t' : Tree} (h : exec (discard path) t = (.ok (), t')) :
    t.remove path.text = .ok t' ∨ t.remove path.text = .error (.refused .noEntry path.text) ∧ t' = t := by
  cases hr : t.remove path.text with
  | ok next =>
    have hchange : exec (FileM.change (·.remove path.text)) t = (.ok (), next) := by
      rw [FileM.exec_change, hr]
    cases (exec_tryCatch_ok hchange).symm.trans h
    exact .inl rfl
  | error fault =>
    have hchange : exec (FileM.change (·.remove path.text)) t = (.error fault, t) := by
      rw [FileM.exec_change, hr]
    have h := (exec_tryCatch_error hchange).symm.trans h
    split_ifs at h with hentry
    · cases h
      exact .inr ⟨by rw [hentry], rfl⟩
    · cases h

theorem home_of_prepare {outDirectory reportFile errorFile : Path} {t t' : Tree}
    (h : exec (prepare outDirectory reportFile errorFile) t = (.ok (), t')) : t'.home = t.home := by
  obtain ⟨_, t₁, hmake, h⟩ := exec_bind_eq_ok h
  obtain ⟨_, t₂, hreport, herror⟩ := exec_bind_eq_ok h
  have hmakes : Moves (Order.Preimage Tree.home Eq) (FileM.makePath (outDirectory.ancestors.map Path.text)) := by
    refine FileM.makePath_moves fun text _ t t' hd => ?_
    obtain ⟨above, last, -, -, rfl⟩ := Tree.makeDirectory_eq_ok hd
    rfl
  have hdiscards : ∀ {path : Path} {t t' : Tree}, exec (discard path) t = (.ok (), t') → t'.home = t.home := by
    intro path t t' hd
    rcases exec_discard_eq_ok hd with hremove | ⟨-, rfl⟩
    · obtain ⟨place, -, -, rfl⟩ := Tree.remove_eq_ok hremove
      rfl
    · rfl
  rw [hdiscards herror, hdiscards hreport]
  exact (hmakes.of_exec hmake).symm

end Steps

end JniSignatures.Launch
