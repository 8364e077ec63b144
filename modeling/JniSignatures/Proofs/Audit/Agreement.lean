import Mathlib
import JniSignatures.Main
import JniSignatures.Proofs.Columnar.Keeping
import JniSignatures.Proofs.Report.Documents
import JniSignatures.Proofs.Report.Saving
/-!
# A saved report passes its check

A check of a saved report finds the report and its index, reads them as they were written, and finds no
fault with the counts. What remains is the table: the check says that the report is fine if it finds the
table (`TableFound`). It does where the library keeps tables (`agreement_of_save`).

Any check, of a saved report or not, looks at two documents in the same way (`examine`). It returns in one of
three ways (`examine_eq_ok_iff`), and what it has to say makes up the verdict (`judge_eq_ok_iff`).
-/

namespace JniSignatures.Audit

open Files (Content Location Path Tree)
open Report (Written factsIndex fileName factsIndexPath tablePath)

/-- The arguments ask for the report in a directory: they name it, or one that has no report of its own
and holds it as `report`. -/
def Asks (tree : Tree) (args : List String) (root : Path) : Prop :=
  ∃ text, Request.ofArgs args = .check text ∧
    (Path.ofText text = root ∨
      root = (Path.ofText text).child "report" ∧ tree.probeFile ((Path.ofText text).child fileName) = .ok false)

/-- A file holds a document in which at most `depth` containers are open at a time. -/
def Decodes (depth : Nat) (tree : Tree) (file : Path) (document : Json) : Prop :=
  ∃ content, tree.read file.text = .ok content ∧ Document.read depth content.toBytes = .ok document

/-- A check finds the table of a report: its path leads to a file, and what is read as the table of that
path are these rows. -/
structure TableFound (tables : Table.Library) (tree : Tree) (root : Path) (rows : List FactRow) : Prop where
  file : tree.probeFile (root.child tablePath) = .ok true
  read : tables.read tree (root.child tablePath).text = .ok (.ofFacts rows)

/-! ## Looking at a document -/

section Looking

variable {α : Type} {runtime : Runtime} {depth : Nat} {tree : Tree} {root file : Path} {report : Json}

/-- Looks at a document: what is said if there is no such file, or if it holds no JSON, and how to go on with the
document otherwise. -/
def examine (depth : Nat) (tree : Tree) (file : Path) (absent : α) (refused : Json.Fault → Text.Place → α)
    (next : Json → Except Fault α) : Except Fault α := do
  if ← (tree.probeFile file).mapError .files then
    let content ← (tree.read file.text).mapError .files
    match Document.read depth content.toBytes with
    | .ok document => next document
    | .error (.undecodable refusal) => .error (.undecodable refusal)
    | .error (.longInt digits) => .error (.longInt digits)
    | .error (.tooDeep container) => .error (.tooDeep container)
    | .error (.malformed fault place) => .ok (refused fault place)
  else return absent

section Examine

variable {absent y : α} {refused : Json.Fault → Text.Place → α} {next : Json → Except Fault α}

theorem examine_of_read {content : Files.Content} (h : tree.read file.text = .ok content) :
    examine depth tree file absent refused next =
      match Document.read depth content.toBytes with
      | .ok document => next document
      | .error (.undecodable refusal) => .error (.undecodable refusal)
      | .error (.longInt digits) => .error (.longInt digits)
      | .error (.tooDeep container) => .error (.tooDeep container)
      | .error (.malformed fault place) => .ok (refused fault place) := by
  obtain ⟨place, hplace⟩ := Tree.holds_of_read h
  rw [examine, hplace.probeFile, h]
  rfl

/-- The three ways in which a look at a document returns. -/
theorem examine_eq_ok_iff : examine depth tree file absent refused next = .ok y ↔
    tree.probeFile file = .ok false ∧ y = absent ∨
    (∃ content fault place, tree.read file.text = .ok content ∧
      Document.read depth content.toBytes = .error (.malformed fault place) ∧ y = refused fault place) ∨
    ∃ document, Decodes depth tree file document ∧ next document = .ok y := by
  constructor
  · intro h
    cases hfile : tree.probeFile file with
    | error fault => rw [examine, hfile] at h; cases h
    | ok there =>
      cases there with
      | false =>
        rw [examine, hfile] at h
        exact .inl ⟨rfl, (Except.ok.inj h).symm⟩
      | true =>
        obtain ⟨place, content, hplace⟩ := Tree.holds_of_probeFile hfile
        rw [examine_of_read hplace.read] at h
        cases hdocument : Document.read depth content.toBytes with
        | ok document =>
          rw [hdocument] at h
          exact .inr (.inr ⟨document, ⟨content, hplace.read, hdocument⟩, h⟩)
        | error fault =>
          rw [hdocument] at h
          cases fault with
          | undecodable refusal => cases h
          | longInt digits => cases h
          | tooDeep container => cases h
          | malformed fault place =>
            exact .inr (.inl ⟨content, fault, place, hplace.read, hdocument, (Except.ok.inj h).symm⟩)
  · rintro (⟨hfile, rfl⟩ | ⟨content, fault, place, hread, hdocument, rfl⟩ | ⟨document, ⟨content, hread, hdocument⟩, h⟩)
    · rw [examine, hfile]
      rfl
    · rw [examine_of_read hread, hdocument]
    · rw [examine_of_read hread, hdocument]
      exact h

end Examine

theorem checkFacts_eq (runtime : Runtime) (tree : Tree) (root : Path) (report : Json) :
    checkFacts runtime tree root report =
    examine (runtime.depth .factsIndex) tree (root.child factsIndexPath) [("facts/index.json not found" : Text)]
      (fun fault place => ["facts/index.json: " ++ (Document.Fault.malformed fault place).message])
      (checkIndex runtime.tables tree root report) :=
  rfl

theorem check_eq (runtime : Runtime) (tree : Tree) (path : String) : check runtime tree path =
    (findRoot tree (Path.ofText path)).mapError .files >>= fun root =>
      examine (runtime.depth .report) tree (root.child fileName) ⟨2, [], ["report.json not found under: " ++ root.text]⟩
        (fun fault place => ⟨1, [], ["Invalid JSON: " ++ (root.child fileName).text ++ ": " ++
          (Document.Fault.malformed fault place).message]⟩)
        (judge runtime tree root) :=
  rfl

/-- The verdict on what a check has to say. -/
def verdictOf (root : Path) (lines : List Text) : Verdict :=
  if lines = [] then ⟨0, ["Report ok: " ++ root.text], []⟩
  else ⟨1, [], "Report check failed:" :: lines.map fun line => "- " ++ line⟩

theorem code_verdictOf (root : Path) (lines : List Text) :
    (verdictOf root lines).code = if lines = [] then 0 else 1 := by
  unfold verdictOf
  split_ifs
  · rfl
  · rfl

theorem code_verdictOf_eq_zero_iff {lines : List Text} : (verdictOf root lines).code = 0 ↔ lines = [] := by
  simp [code_verdictOf]

/-- A verdict comes from what there is to say of the counts and of the facts. -/
theorem judge_eq_ok_iff {verdict : Verdict} : judge runtime tree root report = .ok verdict ↔ ∃ lines others,
    checkSummary report = .ok lines ∧ checkFacts runtime tree root report = .ok others ∧
      verdict = verdictOf root (lines ++ others) := by
  unfold judge verdictOf
  cases checkSummary report with
  | error fault => simp [bind, Except.bind]
  | ok lines =>
    cases checkFacts runtime tree root report with
    | error fault => simp [bind, Except.bind]
    | ok others =>
      simp only [bind, Except.bind, pure, Except.pure, Except.ok.injEq, exists_and_left, exists_eq_left']
      split_ifs
      · simp [eq_comm]
      · simp [eq_comm]

end Looking

section Verdict

variable {runtime : Runtime} {tree : Tree} {root : Path} {r : Report} {programName methodsPath : Option String}

/-! ## Finding the report -/

theorem holdsReport_of_file (hfile : tree.probeFile (root.child fileName) = .ok true) (hroot : root.WellFormed) :
    holdsReport tree root = .ok true := by
  obtain ⟨place, content, hplace⟩ := Tree.holds_of_probeFile hfile
  have hchild : root.child fileName = { root with parts := root.parts ++ ["report.json"] } :=
    Path.child_eq (by decide)
  have hwell := hroot.child fileName
  rw [hchild] at hplace hwell
  obtain ⟨above, habove⟩ := hplace.enters hroot hwell (by decide)
  rw [holdsReport, habove.probeDirectory]
  exact hfile

/-- A directory that has a report below it, and none itself. -/
theorem holdsReport_parent {parent : Path} (hfile : tree.probeFile ((parent.child "report").child fileName) = .ok true)
    (hparent : parent.WellFormed) (hnone : tree.probeFile (parent.child fileName) = .ok false) :
    holdsReport tree parent = .ok false := by
  obtain ⟨place, content, hplace⟩ := Tree.holds_of_probeFile hfile
  have hbelow : parent.child "report" = { parent with parts := parent.parts ++ ["report"] } :=
    Path.child_eq (by decide)
  have hchild : (parent.child "report").child fileName =
      { parent with parts := parent.parts ++ ["report", "report.json"] } := by
    rw [Path.child_eq (show Path.ofText fileName = ⟨"", ["report.json"]⟩ by decide), hbelow, List.append_assoc]
    rfl
  have hwell := (hparent.child "report").child fileName
  rw [hchild] at hplace hwell
  obtain ⟨above, habove⟩ := hplace.enters hparent hwell (by decide)
  rw [holdsReport, habove.probeDirectory]
  exact hnone

theorem findRoot_of_asks {text : String} (hfile : tree.probeFile (root.child fileName) = .ok true)
    (hasks : Path.ofText text = root ∨
      root = (Path.ofText text).child "report" ∧ tree.probeFile ((Path.ofText text).child fileName) = .ok false) :
    findRoot tree (Path.ofText text) = .ok root := by
  have htext := Path.ofText_wellFormed text
  rcases hasks with rfl | ⟨rfl, hnone⟩
  · rw [findRoot, holdsReport_of_file hfile htext]
    rfl
  · rw [findRoot, holdsReport_parent hfile htext hnone]
    show (do
      if ← holdsReport tree ((Path.ofText text).child "report") then return (Path.ofText text).child "report"
      return Path.ofText text) = _
    rw [holdsReport_of_file hfile (htext.child "report")]
    rfl

/-! ## Reading the documents -/

theorem decodes_report (h : Written runtime.tables root r programName methodsPath tree)
    (keeps : runtime.tables.Keeps (root.child tablePath).text) :
    Decodes (runtime.depth .report) tree (root.child fileName) (r.document programName methodsPath) := by
  obtain ⟨place, hplace⟩ := h.report
  exact ⟨_, hplace.read, Report.read_document (runtime.supported .report) (h.rows_fit keeps) h.reportWritable⟩

theorem decodes_factsIndex (h : Written runtime.tables root r programName methodsPath tree) (hroot : root.WellFormed) :
    Decodes (runtime.depth .factsIndex) tree (root.child factsIndexPath) (factsIndex r.factRows.length) := by
  obtain ⟨place, hplace⟩ := h.index hroot
  exact ⟨_, hplace.read, Report.read_factsIndex (runtime.supported .factsIndex) h.indexWritable⟩

theorem Decodes.probeFile {depth : Nat} {file : Path} {document : Json} (h : Decodes depth tree file document) :
    tree.probeFile file = .ok true := by
  obtain ⟨content, hread, -⟩ := h
  obtain ⟨place, hplace⟩ := Tree.holds_of_read hread
  exact hplace.probeFile

theorem run_eq_examine {args : List String} (hfile : tree.probeFile (root.child fileName) = .ok true)
    (hasks : Asks tree args root) : run runtime tree args =
      examine (runtime.depth .report) tree (root.child fileName) ⟨2, [], ["report.json not found under: " ++ root.text]⟩
        (fun fault place => ⟨1, [], ["Invalid JSON: " ++ (root.child fileName).text ++ ": " ++
          (Document.Fault.malformed fault place).message]⟩)
        (judge runtime tree root) := by
  obtain ⟨text, hargs, hasked⟩ := hasks
  have hcheck : run runtime tree args = check runtime tree text := by rw [run, hargs]
  rw [hcheck, check_eq, findRoot_of_asks hfile hasked]
  rfl

theorem run_eq_judge {args : List String} {report : Json}
    (h : Decodes (runtime.depth .report) tree (root.child fileName) report) (hasks : Asks tree args root) :
    run runtime tree args = judge runtime tree root report := by
  rw [run_eq_examine h.probeFile hasks]
  obtain ⟨content, hread, hdocument⟩ := h
  rw [examine_of_read hread, hdocument]

/-! ## Finding the table -/

theorem collect_singleton {α : Type} (look : α → Except Fault (List Text)) (x : α) : collect look [x] = look x := by
  simp only [collect, bind, Except.bind, pure, Except.pure]
  cases look x with
  | error fault => rfl
  | ok lines => simp

/-- The index lists one table with one path. -/
theorem checkIndex_factsIndex (tables : Table.Library) (tree : Tree) (root : Path) (report : Json) (rowCount : Nat) :
    ∃ table, table.get? "row_count" = some (.int rowCount) ∧
      checkIndex tables tree root report (factsIndex rowCount) =
        checkPath tables tree root report table (.string tablePath) := by
  have htables : ∃ table, (factsIndex rowCount).get? "tables" = some (.array [table]) ∧
      table.get? "row_count" = some (.int rowCount) ∧ table.get? "paths" = some (.ofStrings [tablePath]) ∧
      table.kind = .object := ⟨_, rfl, rfl, rfl, rfl⟩
  obtain ⟨table, htable, hcount, hpaths, hkind⟩ := htables
  refine ⟨table, hcount, ?_⟩
  rw [checkIndex, htable]
  show collect (checkTable tables tree root report) [table] = _
  rw [collect_singleton]
  -- The table is an object, so it is not passed over.
  cases table with
  | object fields =>
    rw [checkTable, hpaths]
    exact collect_singleton (checkPath tables tree root report (.object fields)) _
  | _ => cases hkind

/-- With such an index only the table's path is looked at. -/
theorem checkFacts_factsIndex {rowCount : Nat}
    (h : Decodes (runtime.depth .factsIndex) tree (root.child factsIndexPath) (factsIndex rowCount)) (report : Json) :
    ∃ table, table.get? "row_count" = some (.int rowCount) ∧
      checkFacts runtime tree root report = checkPath runtime.tables tree root report table (.string tablePath) := by
  obtain ⟨table, hcount, hindex⟩ := checkIndex_factsIndex runtime.tables tree root report rowCount
  obtain ⟨content, hread, hdocument⟩ := h
  refine ⟨table, hcount, ?_⟩
  rw [checkFacts_eq, examine_of_read hread, hdocument]
  exact hindex

/-- The rows of the table are those of the report, and there are as many as its index says. -/
theorem rowLines_eq_nil {table : Json} (h : table.get? "row_count" = some (.int r.factRows.length)) (path : Text) :
    rowLines (r.document programName methodsPath) table path (.ofFacts r.factRows) = [] := by
  have houtcomes : (r.document programName methodsPath).get? "outcomes" =
      some (.array (r.factRows.map FactRow.toJson)) := rfl
  have hrows : ((r.document programName methodsPath).get? "outcomes").any (Table.Rows.ofFacts r.factRows).agrees := by
    rw [houtcomes]
    exact FactRow.agrees_rows r.factRows
  have hcount : isCount (table.get? "row_count") (Table.Rows.ofFacts r.factRows).count := by
    rw [h]
    exact Report.isCount_int _
  rw [rowLines, if_pos hcount, hrows]
  simp

/-- What is under a path that is a string. -/
theorem tableAt_name_eq_ok_iff {tables : Table.Library} {name : String} {found : Option Table.Rows} :
    tableAt tables tree root name = .ok found ↔
      tree.probeFile (root.child name) = .ok false ∧ found = none ∨
      tree.probeFile (root.child name) = .ok true ∧
        ∃ rows, tables.read tree (root.child name).text = .ok rows ∧ found = some rows := by
  rw [tableAt, Text.string?_ofString]
  simp only [bind_eq_ok_iff, mapError_eq_ok_iff]
  constructor
  · rintro ⟨there, hfile, h⟩
    cases there with
    | false => exact .inl ⟨hfile, (Except.ok.inj h).symm⟩
    | true =>
      obtain ⟨rows, hread, h⟩ := bind_eq_ok_iff.1 h
      exact .inr ⟨hfile, rows, mapError_eq_ok_iff.1 hread, (Except.ok.inj h).symm⟩
  · rintro (⟨hfile, rfl⟩ | ⟨hfile, rows, hread, rfl⟩)
    · exact ⟨false, hfile, rfl⟩
    · exact ⟨true, hfile, bind_eq_ok_iff.2 ⟨rows, mapError_eq_ok_iff.2 hread, rfl⟩⟩

theorem checkPath_of_found {table : Json} (h : table.get? "row_count" = some (.int r.factRows.length))
    (hfound : TableFound runtime.tables tree root r.factRows) :
    checkPath runtime.tables tree root (r.document programName methodsPath) table (.string tablePath) = .ok [] := by
  have htable : tableAt runtime.tables tree root tablePath = .ok (some (.ofFacts r.factRows)) :=
    tableAt_name_eq_ok_iff.2 (.inr ⟨hfound.file, _, hfound.read, rfl⟩)
  simp only [checkPath, htable, bind, Except.bind, pure, Except.pure, rowLines_eq_nil h]

theorem checkPath_of_missing {table : Json} (hfile : tree.probeFile (root.child tablePath) = .ok false) :
    checkPath runtime.tables tree root (r.document programName methodsPath) table (.string tablePath) =
      .ok ["missing fact table " ++ tablePath] := by
  have habsent : tableAt runtime.tables tree root tablePath = .ok none :=
    tableAt_name_eq_ok_iff.2 (.inl ⟨hfile, rfl⟩)
  simp only [checkPath, habsent, bind, Except.bind, pure, Except.pure]

/-- A saved index has nothing against a table that is found. -/
theorem checkFacts_of_found
    (h : Decodes (runtime.depth .factsIndex) tree (root.child factsIndexPath) (factsIndex r.factRows.length))
    (hfound : TableFound runtime.tables tree root r.factRows) :
    checkFacts runtime tree root (r.document programName methodsPath) = .ok [] := by
  obtain ⟨table, hcount, hfacts⟩ := checkFacts_factsIndex h (r.document programName methodsPath)
  rw [hfacts, checkPath_of_found hcount hfound]

theorem checkFacts_of_missing
    (h : Decodes (runtime.depth .factsIndex) tree (root.child factsIndexPath) (factsIndex r.factRows.length))
    (hmissing : tree.probeFile (root.child tablePath) = .ok false) :
    checkFacts runtime tree root (r.document programName methodsPath) = .ok ["missing fact table " ++ tablePath] := by
  obtain ⟨table, -, hfacts⟩ := checkFacts_factsIndex h (r.document programName methodsPath)
  rw [hfacts, checkPath_of_missing hmissing]

end Verdict

/-! ## The verdict -/

/-- After a report has been saved where the library keeps tables, both of its documents are read back as they were
built, the table is found, and a check of the directory, or of one that holds it as `report` and has none itself,
returns 0 and says that the report is fine. -/
theorem agreement_of_save {runtime : Runtime} {directory : String} {r : Report}
    {programName methodsPath : Option String} {path : Path} {tree tree' : Tree}
    (keeps : runtime.tables.Keeps ((Path.ofText directory).child tablePath).text)
    (h : exec (Report.save runtime.tables directory r programName methodsPath) tree = (.ok path, tree')) :
    Decodes (runtime.depth .report) tree' ((Path.ofText directory).child fileName)
      (r.document programName methodsPath) ∧
    Decodes (runtime.depth .factsIndex) tree' ((Path.ofText directory).child factsIndexPath)
      (factsIndex r.factRows.length) ∧
    TableFound runtime.tables tree' (Path.ofText directory) r.factRows ∧
    ∀ args, Asks tree' args (Path.ofText directory) →
      run runtime tree' args = .ok ⟨0, ["Report ok: " ++ (Path.ofText directory).text], []⟩ := by
  obtain ⟨-, hw⟩ := Report.written_of_save h
  have hroot := Path.ofText_wellFormed directory
  obtain ⟨hfile, hread⟩ := hw.stands hroot keeps
  refine ⟨decodes_report hw keeps, decodes_factsIndex hw hroot, ⟨hfile, hread⟩, fun args hasks => ?_⟩
  rw [run_eq_judge (decodes_report hw keeps) hasks, judge_eq_ok_iff]
  exact ⟨[], [], Report.checkSummary_document r programName methodsPath,
    checkFacts_of_found (decodes_factsIndex hw hroot) ⟨hfile, hread⟩, rfl⟩

/-- A report of one method, with a detail that is escaped in the document. -/
def escaped : Report :=
  { indexed := ["Java_A_f"]
    ignored := []
    onLoadModified := []
    outcomes := [⟨some "A.f", some "Java_A_f", .applied, some 2, some "é 😀"⟩] }

/-- A report is saved with the library of the command line. -/
def savedIn (directory : String) (r : Report) (tree : Tree) : Except Report.SaveFault Path × Tree :=
  exec (Report.save CommandLine.runtime.tables directory r (some "libx.so") (some "m.json")) tree

theorem savedIn_eq {directory : String} {r : Report} {tree : Tree} {path : Path}
    (h : (savedIn directory r tree).1 = .ok path) :
    exec (Report.save CommandLine.runtime.tables directory r (some "libx.so") (some "m.json")) tree =
      (.ok path, (savedIn directory r tree).2) := by
  rw [← savedIn, ← h]

/-- A directory in which there is nothing. -/
def bare : Tree := ⟨["w"], []⟩

/-- The report in `out/report`, asked for by its directory and by the one above. -/
theorem escaped_agrees :
    (savedIn "out/report" escaped bare).1 = .ok ((Path.ofText "out/report").child fileName) ∧
      CommandLine.runtime.tables.Keeps ((Path.ofText "out/report").child tablePath).text ∧
      run CommandLine.runtime (savedIn "out/report" escaped bare).2 ["out/report"] = .ok ⟨0, ["Report ok: out/report"], []⟩ ∧
      run CommandLine.runtime (savedIn "out/report" escaped bare).2 ["out"] = .ok ⟨0, ["Report ok: out/report"], []⟩ := by
  have hsaved : (savedIn "out/report" escaped bare).1 = .ok ((Path.ofText "out/report").child fileName) := by
    decide +kernel
  have hbelow : (savedIn "out/report" escaped bare).2.probeFile ((Path.ofText "out").child fileName) = .ok false := by
    decide +kernel
  have keeps : CommandLine.runtime.tables.Keeps ((Path.ofText "out/report").child tablePath).text :=
    Columnar.library_keeps (by decide +kernel)
  obtain ⟨-, -, -, hrun⟩ := agreement_of_save keeps (savedIn_eq hsaved)
  exact ⟨hsaved, keeps, hrun ["out/report"] ⟨"out/report", by decide, .inl rfl⟩,
    hrun ["out"] ⟨"out", by decide, .inr ⟨by decide, hbelow⟩⟩⟩

end JniSignatures.Audit
