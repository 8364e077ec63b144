import Mathlib
import JniSignatures.Proofs.Files.Gains
import JniSignatures.Proofs.Running
import JniSignatures.Report.Save
/-!
# What a saved report leaves

Saving makes the directory and then writes three files. If it returns, each of them has been written,
one after the other (`written_of_save`). Afterwards both documents are there, and so is the table if the
library keeps tables at that path (`Written.stands`).
-/

namespace JniSignatures.Report

open Files (Content FileM Path Tree)

/-- The three files of a report have been written, one after the other. -/
structure Written (tables : Table.Library) (root : Path) (r : Report) (programName methodsPath : Option String)
    (tree : Tree) : Prop where
  indexWritable : (factsIndex r.factRows.length).isWritable
  reportWritable : (r.document programName methodsPath).isWritable
  files : ∃ before withTable withIndex,
    tables.write before (root.child tablePath).text r.factRows = (.ok (), withTable) ∧
    withTable.write (root.child factsIndexPath).text (.ofText (Json.document (factsIndex r.factRows.length))) =
      .ok withIndex ∧
    withIndex.write (root.child fileName).text (.ofText (Json.document (r.document programName methodsPath))) =
      .ok tree

section Steps

variable {tables : Table.Library} {tree tree' : Tree}

theorem exec_change (step : Tree → Except Files.Fault Tree) (tree : Tree) :
    exec (onFiles (FileM.change step)) tree = match step tree with
      | .ok next => (.ok (), next)
      | .error fault => (.error (.files fault), tree) := by
  rw [onFiles, exec_adapt, FileM.exec_change]
  cases step tree with
  | ok next => rfl
  | error fault => rfl

theorem exec_change_eq_ok {step : Tree → Except Files.Fault Tree}
    (h : exec (onFiles (FileM.change step)) tree = (.ok (), tree')) : step tree = .ok tree' := by
  rw [exec_change] at h
  cases hs : step tree with
  | ok next => rw [hs] at h; cases h; rfl
  | error fault => rw [hs] at h; cases h

theorem exec_writeTable (tables : Table.Library) (path : String) (rows : List FactRow) (tree : Tree) :
    exec (writeTable tables path rows) tree =
      ((tables.write tree path rows).1.mapError .table, (tables.write tree path rows).2) :=
  rfl

theorem exec_writeTable_eq_ok {path : String} {rows : List FactRow}
    (h : exec (writeTable tables path rows) tree = (.ok (), tree')) :
    tables.write tree path rows = (.ok (), tree') := by
  rw [exec_writeTable] at h
  cases hw : tables.write tree path rows with
  | mk result after =>
    rw [hw] at h
    cases result with
    | ok => cases h; rfl
    | error fault => cases h

theorem exec_writeDocument_eq_ok {path : String} {document : Json}
    (h : exec (writeDocument path document) tree = (.ok (), tree')) :
    document.isWritable ∧ tree.write path (.ofText (Json.document document)) = .ok tree' := by
  unfold writeDocument at h
  split_ifs at h with hw
  · exact ⟨hw, exec_change_eq_ok h⟩
  · obtain ⟨_, between, -, h⟩ := exec_bind_eq_ok h
    cases h

end Steps

theorem written_of_save {tables : Table.Library} {directory : String} {r : Report}
    {programName methodsPath : Option String} {path : Path} {tree tree' : Tree}
    (h : exec (save tables directory r programName methodsPath) tree = (.ok path, tree')) :
    path = (Path.ofText directory).child fileName ∧
      Written tables (Path.ofText directory) r programName methodsPath tree' := by
  obtain ⟨_, t₁, -, h⟩ := exec_bind_eq_ok h
  obtain ⟨_, t₂, hTable, h⟩ := exec_bind_eq_ok h
  obtain ⟨_, t₃, hIndex, h⟩ := exec_bind_eq_ok h
  obtain ⟨_, t₄, hReport, h⟩ := exec_bind_eq_ok h
  obtain ⟨hiw, hIndex⟩ := exec_writeDocument_eq_ok hIndex
  obtain ⟨hrw, hReport⟩ := exec_writeDocument_eq_ok hReport
  cases h
  exact ⟨rfl, hiw, hrw, t₁, t₂, t₃, exec_writeTable_eq_ok hTable, hIndex, hReport⟩

/-! ## Afterwards -/

/-- The last step to a file in a directory is the last name of its path from there. -/
theorem last_step_child {root : Path} {text : String} {parts : List String} (hroot : root.WellFormed)
    (h : Path.ofText text = ⟨"", parts⟩) (hparts : parts ≠ []) :
    (Files.steps (root.child text).text).getLast? = parts.getLast? := by
  have hw := hroot.child text
  rw [Path.child_eq h] at hw ⊢
  rw [Files.steps_text hw (by simp [hparts]), List.getLast?_append_of_ne_nil _ hparts]

theorem last_step_fileName {root : Path} (hroot : root.WellFormed) :
    (Files.steps (root.child fileName).text).getLast? = some "report.json" :=
  last_step_child hroot (show Path.ofText fileName = ⟨"", ["report.json"]⟩ by decide) (by decide)

theorem last_step_factsIndexPath {root : Path} (hroot : root.WellFormed) :
    (Files.steps (root.child factsIndexPath).text).getLast? = some "index.json" :=
  last_step_child hroot (show Path.ofText factsIndexPath = ⟨"", ["facts", "index.json"]⟩ by decide) (by decide)

theorem last_step_tablePath {root : Path} (hroot : root.WellFormed) :
    (Files.steps (root.child tablePath).text).getLast? = some "jni_methods.parquet" :=
  last_step_child hroot (show Path.ofText tablePath = ⟨"", ["facts", "jni_methods.parquet"]⟩ by decide) (by decide)

namespace Written

variable {tables : Table.Library} {root : Path} {r : Report} {programName methodsPath : Option String} {tree : Tree}

theorem report (h : Written tables root r programName methodsPath tree) : ∃ place,
    tree.Holds (root.child fileName).text place (.ofText (Json.document (r.document programName methodsPath))) := by
  obtain ⟨_, _, withIndex, -, -, hReport⟩ := h.files
  obtain ⟨place, hplace, -⟩ := Tree.holds_of_write hReport
  exact ⟨place, hplace⟩

theorem index (h : Written tables root r programName methodsPath tree) (hroot : root.WellFormed) : ∃ place,
    tree.Holds (root.child factsIndexPath).text place (.ofText (Json.document (factsIndex r.factRows.length))) := by
  obtain ⟨before, withTable, withIndex, -, hIndex, hReport⟩ := h.files
  obtain ⟨place, hplace, hlast⟩ := Tree.holds_of_write hIndex
  refine ⟨place, hplace.write_of_ne hReport ?_⟩
  rw [hlast, last_step_factsIndexPath hroot, last_step_fileName hroot]
  decide

/-- A table that the library keeps is there, and is read from what its file holds. -/
theorem table (h : Written tables root r programName methodsPath tree) (hroot : root.WellFormed)
    (keeps : tables.Keeps (root.child tablePath).text) :
    ∃ place content, tree.Holds (root.child tablePath).text place content ∧
      ∀ later : Tree, later.read (root.child tablePath).text = .ok content →
        tables.read later (root.child tablePath).text = .ok (.ofFacts r.factRows) := by
  obtain ⟨before, withTable, withIndex, hTable, hIndex, hReport⟩ := h.files
  obtain ⟨content, hwrite, hreads⟩ := keeps.written hTable
  obtain ⟨place, hplace, hlast⟩ := Tree.holds_of_write hwrite
  refine ⟨place, content, (hplace.write_of_ne hIndex ?_).write_of_ne hReport ?_, hreads⟩
  · rw [hlast, last_step_tablePath hroot, last_step_factsIndexPath hroot]
    decide
  · rw [hlast, last_step_tablePath hroot, last_step_fileName hroot]
    decide

theorem stands (h : Written tables root r programName methodsPath tree) (hroot : root.WellFormed)
    (keeps : tables.Keeps (root.child tablePath).text) :
    tree.probeFile (root.child tablePath) = .ok true ∧
      tables.read tree (root.child tablePath).text = .ok (.ofFacts r.factRows) := by
  obtain ⟨place, content, hplace, hreads⟩ := h.table hroot keeps
  exact ⟨hplace.probeFile, hreads tree hplace.read⟩

/-- The rows of a table that the library keeps fit its columns. -/
theorem rows_fit (h : Written tables root r programName methodsPath tree)
    (keeps : tables.Keeps (root.child tablePath).text) : ∀ row ∈ r.factRows, Table.fits row := by
  obtain ⟨_, _, _, hTable, -, -⟩ := h.files
  exact keeps.fits hTable

end Written

end JniSignatures.Report
