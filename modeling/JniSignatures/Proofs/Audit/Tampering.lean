import Mathlib
import JniSignatures.Proofs.Audit.Diagnosis
/-!
# Counts that have been changed

The summary of a report has eight counts (`Summary.figures`). In a saved report any of them may be replaced by
another integer (`Tampered`). A check compares seven of them with the lists, so it finds out if one of these has
changed; the number of functions that run on loading is compared with nothing (`tampering_detected_iff`).
-/

namespace JniSignatures

/-! ## Changing a field -/

namespace Json

/-- An object whose field of a name, if it has one, has another value. -/
def set (j : Json) (key : Text) (value : Json) : Json :=
  match j with
  | .object fields => .object (fields.map fun field => (field.1, if field.1 = key then value else field.2))
  | other => other

section Set

variable {key : Text} {value j : Json}

theorem get?_set (other : Text) :
    (j.set key value).get? other = (j.get? other).map fun field => if other = key then value else field := by
  cases j with
  | object fields =>
    show List.lookup other (fields.map _) = (fields.lookup other).map _
    induction fields with
    | nil => rfl
    | cons field fields ih =>
      rw [List.map_cons, List.lookup_cons, List.lookup_cons]
      by_cases hname : other = field.1
      · simp [hname]
      · simp only [beq_false_of_ne hname]
        exact ih
  | _ => rfl

theorem fieldsPlain_set {fields : List (Text × Json)} (hfields : FieldsPlain fields) (hvalue : value.Plain) :
    FieldsPlain (fields.map fun field => (field.1, if field.1 = key then value else field.2)) := by
  induction fields with
  | nil => exact trivial
  | cons field fields ih =>
    refine ⟨hfields.1, ?_, ih hfields.2.2⟩
    split_ifs
    · exact hvalue
    · exact hfields.2.1

theorem plain_set (hj : j.Plain) (hvalue : value.Plain) : (j.set key value).Plain := by
  cases j with
  | object fields =>
    refine ⟨?_, fieldsPlain_set hj.2 hvalue⟩
    rw [List.map_map]
    exact hj.1
  | _ => exact hj

end Set

end Json

/-- The counts of a summary under their names. -/
def Summary.figures (s : Summary) : List (String × Nat) :=
  [("applied_count", s.applied), ("ignored_count", s.ignored), ("indexed_count", s.indexed),
    ("method_count", s.methods), ("no_match_count", s.noMatch), ("onload_modified_count", s.onLoadModified),
    ("type_error_count", s.typeError), ("unsupported_count", s.unsupported)]

namespace Audit

open Files (Content Path Tree)
open Report (fileName factsIndexPath tablePath factsIndex Written)

/-! ## Replacing counts -/

/-- A document is that of a report but for its summary, in which every count is the integer that stands for it. -/
structure Tampered (r : Report) (programName methodsPath : Option String) (numbers : String → Int)
    (document : Json) : Prop where
  others : ∀ key : Text, key ≠ "summary" → document.get? key = (r.document programName methodsPath).get? key
  summary : ∃ summary, document.get? "summary" = some summary ∧ summary.kind = .object ∧
    ∀ figure ∈ r.summary.figures, summary.get? figure.1 = some (.int (numbers figure.1))

/-- A count that is compared with a list has been changed. -/
def Contradicts (r : Report) (numbers : String → Int) : Prop :=
  ∃ figure ∈ r.summary.figures, figure.1 ≠ "onload_modified_count" ∧ numbers figure.1 ≠ figure.2

instance (r : Report) (numbers : String → Int) : Decidable (Contradicts r numbers) :=
  inferInstanceAs (Decidable (∃ figure ∈ r.summary.figures, _))

section Counting

variable {r : Report} {programName methodsPath : Option String} {numbers : String → Int} {document : Json}

theorem not_contradicts_iff : ¬ Contradicts r numbers ↔
    numbers "applied_count" = r.count .applied ∧ numbers "ignored_count" = r.ignored.length ∧
    numbers "indexed_count" = r.indexed.length ∧ numbers "method_count" = r.outcomes.length ∧
    numbers "no_match_count" = r.count .noMatch ∧ numbers "type_error_count" = r.count .typeError ∧
    numbers "unsupported_count" = r.count .unsupported := by
  simp [Contradicts, Summary.figures, Report.summary]

theorem counts_int_iff {object : Json} {key : String} {z : Int} {n : Nat} (h : object.get? key = some (.int z)) :
    Counts object key n ↔ z = n := by
  rw [← isCount_iff, isCount, h]
  simp [Json.agrees, Json.quantity?, Json.Quantity.agrees]

/-- The outcomes in the document have the statuses of those in the report. -/
theorem countP_hasStatus (r : Report) (status : Status) :
    (r.factRows.map FactRow.toJson).countP (hasStatus status) = r.count status := by
  rw [← countStatus_eq, Report.factRows, Report.statuses_factRowsFrom, Report.countStatus_words]
  rfl

theorem length_outcomes (r : Report) : (r.factRows.map FactRow.toJson).length = r.outcomes.length := by
  rw [List.length_map, Report.factRows, Report.length_factRowsFrom]

/-- A status in the document is a text. -/
theorem countable_outcomes (r : Report) : ∀ outcome ∈ r.factRows.map FactRow.toJson, ∀ status,
    outcome.get? "status" = some status → status.kind ≠ .array ∧ status.kind ≠ .object := by
  rw [← find_uncountable_eq_none_iff, Report.factRows, Report.statuses_factRowsFrom, List.find?_eq_none,
    List.forall_mem_map]
  intro outcome _
  simp [isCountable]

namespace Tampered

theorem outcomes_eq (h : Tampered r programName methodsPath numbers document) :
    document.get? "outcomes" = some (.array (r.factRows.map FactRow.toJson)) :=
  h.others "outcomes" (by decide)

theorem countable (h : Tampered r programName methodsPath numbers document) : Countable document := by
  obtain ⟨summary, hsummary, -, -⟩ := h.summary
  refine ⟨?_, fun _ outcomes _ _ houtcomes => ?_⟩
  · cases document with
    | object fields => rfl
    | _ => cases hsummary
  · obtain rfl : r.factRows.map FactRow.toJson = outcomes := by simpa [h.outcomes_eq] using houtcomes
    exact countable_outcomes r

/-- The summary agrees with the lists if and only if the integers that are compared with these are the counts. -/
theorem summarizes_iff (h : Tampered r programName methodsPath numbers document) :
    (∃ summary outcomes, Summarizes document summary outcomes) ↔ ¬ Contradicts r numbers := by
  obtain ⟨summary, hsummary, hobject, hnumbers⟩ := h.summary
  have hlists : document.get? "indexed" = some (.ofStrings r.indexed) ∧
      document.get? "ignored" = some (.ofStrings r.ignored) :=
    ⟨h.others "indexed" (by decide), h.others "ignored" (by decide)⟩
  have hcounts : ∀ figure ∈ r.summary.figures, ∀ n, Counts summary figure.1 n ↔ numbers figure.1 = n :=
    fun figure hmem n => counts_int_iff (hnumbers figure hmem)
  simp only [Summary.figures, List.forall_mem_cons] at hcounts
  obtain ⟨happlied, hignored, hindexed, hmethods, hnoMatch, -, htypeError, hunsupported, -⟩ := hcounts
  rw [not_contradicts_iff, ← happlied, ← hignored, ← hindexed, ← hmethods, ← hnoMatch, ← htypeError, ← hunsupported]
  constructor
  · rintro ⟨other, outcomes, hs⟩
    obtain rfl : summary = other := Option.some.inj (hsummary.symm.trans hs.hasSummary)
    obtain rfl : r.factRows.map FactRow.toJson = outcomes := by simpa [h.outcomes_eq] using hs.hasOutcomes
    have hstatus : ∀ entry ∈ countedStatuses, Counts summary entry.2 (r.count entry.1) :=
      fun entry hmem => countP_hasStatus r entry.1 ▸ hs.statuses entry hmem
    refine ⟨hstatus (.applied, _) (by decide), ?_, ?_, length_outcomes r ▸ hs.methods,
      hstatus (.noMatch, _) (by decide), hstatus (.typeError, _) (by decide), hstatus (.unsupported, _) (by decide)⟩
    · simpa using hs.lists ("ignored", _) (by decide) _ hlists.2
    · simpa using hs.lists ("indexed", _) (by decide) _ hlists.1
  · rintro ⟨happlied, hignored, hindexed, hmethods, hnoMatch, htypeError, hunsupported⟩
    refine ⟨summary, _, hsummary, hobject, h.outcomes_eq, (length_outcomes r).symm ▸ hmethods, ?_,
      countable_outcomes r, ?_⟩
    · simp only [countedStatuses, List.forall_mem_cons, countP_hasStatus]
      exact ⟨happlied, hnoMatch, hunsupported, htypeError, List.forall_mem_nil _⟩
    · simp only [countedLists, List.forall_mem_cons, hlists, Option.some.injEq, Json.ofStrings, Json.array.injEq,
        forall_eq', List.length_map]
      exact ⟨hindexed, hignored, List.forall_mem_nil _⟩

end Tampered

/-- The document of a report, with other integers for its counts. -/
def recounted (r : Report) (programName methodsPath : Option String) (numbers : String → Int) : Json :=
  (r.document programName methodsPath).set "summary"
    (.object (r.summary.figures.map fun figure => (figure.1, .int (numbers figure.1))))

theorem tampered_recounted (r : Report) (programName methodsPath : Option String) (numbers : String → Int) :
    Tampered r programName methodsPath numbers (recounted r programName methodsPath numbers) := by
  refine ⟨fun key hkey => ?_, _, Json.get?_set "summary", rfl, ?_⟩
  · rw [recounted, Json.get?_set]
    simp [hkey]
  · simp [Summary.figures, Json.get?, List.lookup]

theorem plain_recounted (hrows : ∀ row ∈ r.factRows, Table.fits row) (programName methodsPath : Option String)
    (numbers : String → Int) : (recounted r programName methodsPath numbers).Plain := by
  have hnames : (r.summary.figures.map Prod.fst).Nodup :=
    (by decide : ["applied_count", "ignored_count", "indexed_count", "method_count", "no_match_count",
      "onload_modified_count", "type_error_count", "unsupported_count"].Nodup)
  refine Json.plain_set (Report.plain_document hrows programName methodsPath) (Json.plain_object hnames rfl ?_)
  exact ⟨trivial, trivial, trivial, trivial, trivial, trivial, trivial, trivial, trivial⟩

end Counting

/-! ## The facts -/

section Facts

variable {runtime : Runtime} {tree : Tree} {root : Path} {report report' index : Json}

/-- Of a report the tables are compared with the outcomes only. -/
theorem checkFacts_congr (h : report.get? "outcomes" = report'.get? "outcomes") :
    checkFacts runtime tree root report = checkFacts runtime tree root report' := by
  have hlines : rowLines report = rowLines report' := by
    funext table path rows
    rw [rowLines, rowLines, h]
  have hpath : checkPath runtime.tables tree root report = checkPath runtime.tables tree root report' := by
    funext table path
    cases path with
    | string text => rw [checkPath, checkPath, hlines]
    | _ => rfl
  have htable : checkTable runtime.tables tree root report = checkTable runtime.tables tree root report' := by
    funext table
    cases table with
    | object fields => rw [checkTable, checkTable, hpath]
    | _ => rfl
  have hindex : checkIndex runtime.tables tree root report = checkIndex runtime.tables tree root report' := by
    funext index
    rw [checkIndex, checkIndex, htable]
  rw [checkFacts_eq, checkFacts_eq, hindex]

theorem Tampered.checkFacts_eq {r : Report} {programName methodsPath : Option String} {numbers : String → Int}
    (h : Tampered r programName methodsPath numbers report) :
    checkFacts runtime tree root report = checkFacts runtime tree root (r.document programName methodsPath) :=
  checkFacts_congr (h.others "outcomes" (by decide))

end Facts

/-! ## Writing over the report -/

section Overwriting

variable {tables : Table.Library} {root : Path} {r : Report} {programName methodsPath : Option String}
  {tree changed : Tree} {content : Content}

/-- The index stays when the report is written again. -/
theorem decodes_factsIndex_of_write (hw : Written tables root r programName methodsPath tree) (hroot : root.WellFormed)
    (hwrite : tree.write (root.child fileName).text content = .ok changed) {depth : Nat}
    (hd : Document.supportedDepth ≤ depth) :
    Decodes depth changed (root.child factsIndexPath) (factsIndex r.factRows.length) := by
  obtain ⟨place, hplace⟩ := hw.index hroot
  have hkept := hplace.write_beside hwrite (Report.last_step_factsIndexPath hroot) (by decide)
    (by rw [Report.last_step_fileName hroot]; decide)
  exact ⟨_, hkept.read, Report.read_factsIndex hd hw.indexWritable⟩

/-- The table stays when the report is written again. -/
theorem found_of_write (hw : Written tables root r programName methodsPath tree) (hroot : root.WellFormed)
    (keeps : tables.Keeps (root.child tablePath).text)
    (hwrite : tree.write (root.child fileName).text content = .ok changed) :
    TableFound tables changed root r.factRows := by
  obtain ⟨place, kept, hplace, hreads⟩ := hw.table hroot keeps
  have hkept := hplace.write_beside hwrite (Report.last_step_tablePath hroot) (by decide)
    (by rw [Report.last_step_fileName hroot]; decide)
  exact ⟨hkept.probeFile, hreads changed hkept.read⟩

end Overwriting

/-! ## The verdict -/

section Verdict

variable {runtime : Runtime} {root : Path} {r : Report} {programName methodsPath : Option String} {tree : Tree}
  {numbers : String → Int} {document : Json}

/-- What there is to say of changed counts is nothing if and only if they do not contradict the lists. -/
theorem judge_tampered (h : Tampered r programName methodsPath numbers document) {others : List Text}
    (hfacts : checkFacts runtime tree root (r.document programName methodsPath) = .ok others) :
    ∃ lines, (lines = [] ↔ ¬ Contradicts r numbers) ∧
      judge runtime tree root document = .ok (verdictOf root (lines ++ others)) := by
  obtain ⟨lines, hlines⟩ := checkSummary_returns_iff.2 h.countable
  refine ⟨lines, ?_, judge_eq_ok_iff.2 ⟨lines, others, hlines, h.checkFacts_eq.trans hfacts, rfl⟩⟩
  rw [← h.summarizes_iff, ← checkSummary_eq_nil_iff, hlines, Except.ok.injEq]

/-- Of changed counts that contradict the lists every verdict is 1. -/
theorem code_of_judge (h : Tampered r programName methodsPath numbers document) (hcontradicts : Contradicts r numbers)
    {verdict : Verdict} (hjudge : judge runtime tree root document = .ok verdict) : verdict.code = 1 := by
  obtain ⟨-, others, -, hothers, -⟩ := judge_eq_ok_iff.1 hjudge
  obtain ⟨lines, hnil, hlines⟩ := judge_tampered h (h.checkFacts_eq.symm.trans hothers)
  obtain rfl := Except.ok.inj (hjudge.symm.trans hlines)
  rw [code_verdictOf, if_neg fun hboth => hnil.1 (List.append_eq_nil_iff.1 hboth).1 hcontradicts]

/-- Where the table is found, nothing else is said than of the counts. -/
theorem run_tampered {changed : Tree} {content : Content} {args : List String}
    (hw : Written runtime.tables root r programName methodsPath tree) (hroot : root.WellFormed)
    (hwrite : tree.write (root.child fileName).text content = .ok changed)
    (hdocument : Document.read (runtime.depth .report) content.toBytes = .ok document)
    (h : Tampered r programName methodsPath numbers document)
    (hasks : Asks changed args root) (hfound : TableFound runtime.tables changed root r.factRows) :
    ∃ lines, (lines = [] ↔ ¬ Contradicts r numbers) ∧ run runtime changed args = .ok (verdictOf root lines) := by
  obtain ⟨place, hplace, -⟩ := Tree.holds_of_write hwrite
  obtain ⟨lines, hnil, hjudge⟩ :=
    judge_tampered h
      (checkFacts_of_found (decodes_factsIndex_of_write hw hroot hwrite (runtime.supported .factsIndex)) hfound)
  rw [run_eq_judge ⟨content, hplace.read, hdocument⟩ hasks, hjudge, List.append_nil]
  exact ⟨lines, hnil, rfl⟩

end Verdict

/-- After the report of a saved directory has been written again with other integers for its counts, every verdict
of a check is 1 if one of the counts that are compared with a list has changed. Where the table is found there is a
verdict, and it is 1 if and only if such a count has changed; where the table is missing, it is 1 in any case. The
number of functions that run on loading is in no comparison, and an integer of too many digits fails the check.
The table is found in every directory where the library keeps it. -/
theorem tampering_detected_iff {runtime : Runtime} {directory : String} {r : Report}
    {programName methodsPath : Option String} {path : Path} {tree tree' changed : Tree} {content : Content}
    {args : List String}
    (hsave : exec (Report.save runtime.tables directory r programName methodsPath) tree = (.ok path, tree'))
    (hwrite : tree'.write path.text content = .ok changed) (hasks : Asks changed args (Path.ofText directory)) :
    (∀ numbers document, Document.read (runtime.depth .report) content.toBytes = .ok document →
      Tampered r programName methodsPath numbers document →
        (Contradicts r numbers → ∀ verdict, run runtime changed args = .ok verdict → verdict.code = 1) ∧
        (TableFound runtime.tables changed (Path.ofText directory) r.factRows →
          ∃ verdict, run runtime changed args = .ok verdict ∧ verdict.code = if Contradicts r numbers then 1 else 0) ∧
        (changed.probeFile ((Path.ofText directory).child tablePath) = .ok false →
          ∃ verdict, run runtime changed args = .ok verdict ∧ verdict.code = 1)) ∧
    (∀ digits, Document.read (runtime.depth .report) content.toBytes = .error (.longInt digits) →
      run runtime changed args = .error (.longInt digits)) ∧
    (runtime.tables.Keeps ((Path.ofText directory).child tablePath).text →
      TableFound runtime.tables changed (Path.ofText directory) r.factRows) := by
  obtain ⟨rfl, hw⟩ := Report.written_of_save hsave
  have hroot := Path.ofText_wellFormed directory
  obtain ⟨place, hplace, -⟩ := Tree.holds_of_write hwrite
  refine ⟨fun numbers document hdocument h => ⟨?_, fun hfound => ?_, fun hmissing => ?_⟩, fun digits hlong => ?_, ?_⟩
  · rw [run_eq_judge ⟨content, hplace.read, hdocument⟩ hasks]
    exact fun hcontradicts verdict => code_of_judge h hcontradicts
  · obtain ⟨lines, hnil, hrun⟩ := run_tampered hw hroot hwrite hdocument h hasks hfound
    refine ⟨_, hrun, ?_⟩
    simp only [code_verdictOf, hnil, ite_not]
  · obtain ⟨lines, -, hjudge⟩ :=
      judge_tampered h
        (checkFacts_of_missing (decodes_factsIndex_of_write hw hroot hwrite (runtime.supported .factsIndex)) hmissing)
    rw [run_eq_judge ⟨content, hplace.read, hdocument⟩ hasks]
    refine ⟨_, hjudge, ?_⟩
    rw [code_verdictOf, if_neg (List.append_ne_nil_of_right_ne_nil lines (List.cons_ne_nil _ _))]
  · exact run_of_longInt hplace.read hlong hasks
  · exact fun keeps => found_of_write hw hroot keeps hwrite

/-- A report of one applied method and of a function that runs on loading. -/
def simple : Report :=
  { indexed := ["Java_A_f"]
    ignored := []
    onLoadModified := ["JNI_OnLoad"]
    outcomes := [⟨some "A.f", some "Java_A_f", .applied, some 2, none⟩] }

/-- The integers are the counts of a report, but for one of them. -/
def replacing (r : Report) (key : String) (n : Int) (other : String) : Int :=
  if other = key then n else (r.summary.figures.lookup other).getD 0

/-- The report is saved in `out` and written again with another integer for one of its counts. -/
def rewritten (key : String) (n : Int) : Except Files.Fault Tree :=
  (savedIn "out" simple bare).2.write ((Path.ofText "out").child fileName).text
    (.ofText (Json.document (recounted simple (some "libx.so") (some "m.json") (replacing simple key n))))

theorem exists_rewritten {key : String} {n : Int} (h : (rewritten key n).isOk) :
    ∃ changed, rewritten key n = .ok changed := by
  cases hwrite : rewritten key n with
  | ok changed => exact ⟨changed, rfl⟩
  | error fault => simp [hwrite, Except.isOk, Except.toBool] at h

/-- A count of applied methods that is too great is noticed. -/
theorem simple_overcounted : ∃ changed verdict, rewritten "applied_count" 2 = .ok changed ∧
    Contradicts simple (replacing simple "applied_count" 2) ∧
    run CommandLine.runtime changed ["out"] = .ok verdict ∧ verdict.code = 1 := by
  have hsaved : (savedIn "out" simple bare).1 = .ok ((Path.ofText "out").child fileName) := by
    decide +kernel
  obtain ⟨changed, hwrite⟩ : ∃ changed, rewritten "applied_count" 2 = .ok changed :=
    exists_rewritten (by decide +kernel)
  have hasks : Asks changed ["out"] (Path.ofText "out") := ⟨"out", by decide, .inl rfl⟩
  have hcontradicts : Contradicts simple (replacing simple "applied_count" 2) := by decide
  obtain ⟨hcounts, -, hfound⟩ := tampering_detected_iff (savedIn_eq hsaved) hwrite hasks
  obtain ⟨-, htable, -⟩ := hcounts _ _
    (Document.read_document (plain_recounted (by decide) _ _ _) (by decide +kernel) (by decide +kernel))
    (tampered_recounted simple _ _ _)
  obtain ⟨verdict, hrun, hcode⟩ := htable (hfound (Columnar.library_keeps (by decide +kernel)))
  exact ⟨changed, verdict, hwrite, hcontradicts, hrun, hcode.trans (if_pos hcontradicts)⟩

/-- A count of functions that run on loading that is too great is not noticed. -/
theorem simple_miscounted : (savedIn "out" simple bare).1 = .ok ((Path.ofText "out").child fileName) ∧
    ("onload_modified_count", 1) ∈ simple.summary.figures ∧
    ∃ changed, rewritten "onload_modified_count" 7 = .ok changed ∧
      run CommandLine.runtime changed ["out"] = .ok ⟨0, ["Report ok: out"], []⟩ := by
  have hsaved : (savedIn "out" simple bare).1 = .ok ((Path.ofText "out").child fileName) := by
    decide +kernel
  obtain ⟨changed, hwrite⟩ : ∃ changed, rewritten "onload_modified_count" 7 = .ok changed :=
    exists_rewritten (by decide +kernel)
  obtain ⟨-, hw⟩ := Report.written_of_save (savedIn_eq hsaved)
  have hroot := Path.ofText_wellFormed "out"
  have hasks : Asks changed ["out"] (Path.ofText "out") := ⟨"out", by decide, .inl rfl⟩
  obtain ⟨lines, hnil, hrun⟩ := run_tampered hw hroot hwrite
    (Document.read_document (plain_recounted (by decide) _ _ _) (by decide +kernel) (by decide +kernel))
    (tampered_recounted simple _ _ _) hasks
    (found_of_write hw hroot (Columnar.library_keeps (by decide +kernel)) hwrite)
  -- The count that differs is in no comparison.
  obtain rfl : lines = [] := hnil.2 (by decide)
  exact ⟨hsaved, by decide, changed, hwrite, hrun⟩

end Audit

end JniSignatures
