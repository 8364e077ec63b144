import Mathlib
import JniSignatures.Proofs.Audit.Agreement
import JniSignatures.Proofs.Json.LongInteger
/-!
# What it means that a report is fine

A check goes through two documents that may hold anything, and through the tables that they name. It says that
the report is fine if both documents can be read and agree with the tables (`Consistent`), and only then: every
guard that passes something over passes over what has no say in it (`passes_iff`). The rows of a table are those
that the library reads under its path. A document that the reader refuses never passes, even if it is consistent
(`oversized_fails`).
-/

namespace JniSignatures.Audit

open Files (Path Tree)
open Report (fileName factsIndexPath tableName)

/-! ## Consistency -/

/-- A value is a number as values are compared: as an integer, as a floating-point number, or as a boolean. -/
inductive Denotes : Json → Nat → Prop where
  | int (n : Nat) : Denotes (.int n) n
  | float {x : Decimal.Binary64} {n : Nat} (h : x.agreesInt n = true) : Denotes (.float x) n
  | one : Denotes (.bool true) 1
  | zero : Denotes (.bool false) 0

/-- An object has a field that is a number. -/
def Counts (object : Json) (key : String) (n : Nat) : Prop :=
  ∃ value, object.get? key = some value ∧ Denotes value n

/-- An outcome has the given status. -/
def hasStatus (status : Status) (outcome : Json) : Bool :=
  match outcome.get? "status" with
  | some (.string word) => word = status.word
  | _ => false

/-- The summary of a report agrees with its outcomes and with its other lists. -/
structure Summarizes (report summary : Json) (outcomes : List Json) : Prop where
  hasSummary : report.get? "summary" = some summary
  isObject : summary.kind = .object
  hasOutcomes : report.get? "outcomes" = some (.array outcomes)
  methods : Counts summary "method_count" outcomes.length
  statuses : ∀ entry ∈ countedStatuses, Counts summary entry.2 (outcomes.countP (hasStatus entry.1))
  /-- No outcome has a list or an object for its status. -/
  countable : ∀ outcome ∈ outcomes, ∀ value, outcome.get? "status" = some value →
    value.kind ≠ .array ∧ value.kind ≠ .object
  lists : ∀ entry ∈ countedLists, ∀ items, report.get? entry.1 = some (.array items) →
    Counts summary entry.2 items.length

/-- An index lists a path for a table. -/
def Lists (index table : Json) (path : Text) : Prop :=
  ∃ tables paths, index.get? "tables" = some (.array tables) ∧ table ∈ tables ∧
    table.get? "paths" = some (.array paths) ∧ .string path ∈ paths

/-- The paths of every table are a list of texts, or null, or missing. -/
def ListsTexts (index : Json) : Prop :=
  ∀ tables, index.get? "tables" = some (.array tables) → ∀ table ∈ tables,
    table.get? "paths" = none ∨ table.get? "paths" = some .null ∨
      ∃ texts : List Text, table.get? "paths" = some (.array (texts.map .string))

/-- There is a file of the path, and these are what the library reads as its rows. -/
inductive Found (tables : Table.Library) (tree : Tree) (root : Path) : Text → Table.Rows → Prop where
  | file {name : String} {rows : Table.Rows} (there : tree.probeFile (root.child name) = .ok true)
      (read : tables.read tree (root.child name).text = .ok rows) : Found tables tree root name rows
  | stray {path : Text} {rows : Table.Rows} (surrogates : ¬ path.IsString)
      (read : tables.stray tree root path = .ok (some rows)) : Found tables tree root path rows

/-- There is no file of the path. -/
inductive Absent (tables : Table.Library) (tree : Tree) (root : Path) : Text → Prop where
  | file {name : String} (missing : tree.probeFile (root.child name) = .ok false) : Absent tables tree root name
  | stray {path : Text} (surrogates : ¬ path.IsString) (missing : tables.stray tree root path = .ok none) :
      Absent tables tree root path

/-- There is a file of the path, and its rows agree with the table and with the outcomes. -/
def Backs (tables : Table.Library) (tree : Tree) (root : Path) (outcomes : List Json) (table : Json)
    (path : Text) : Prop :=
  ∃ rows, Found tables tree root path rows ∧ Counts table "row_count" rows.count ∧
    (table.get? "name" = some (.string tableName) → rows.agrees (.array outcomes) = true)

/-- The documents of a report agree with each other and with the tables. -/
def Consistent (tables : Table.Library) (tree : Tree) (root : Path) (report index : Json) : Prop :=
  ∃ summary outcomes, Summarizes report summary outcomes ∧
    (∃ listed, index.get? "tables" = some (.array listed)) ∧
    ∀ table path, Lists index table path → Backs tables tree root outcomes table path

/-- A check says that the report is fine. -/
def Passes (runtime : Runtime) (tree : Tree) (args : List String) : Prop :=
  ∃ verdict, run runtime tree args = .ok verdict ∧ verdict.code = 0

/-! ## Counts -/

section Counting

variable {object report summary : Json} {key things : String} {n : Nat} {outcomes : List Json}

theorem agrees_int_iff {value : Json} : value.agrees (.int n) = true ↔ Denotes value n := by
  constructor
  · intro h
    cases value with
    | null => cases h
    | bool b =>
      have hb : (if b then 1 else 0 : Int) = n := by
        simpa [Json.agrees, Json.quantity?, Json.Quantity.agrees] using h
      cases b with
      | true =>
        obtain rfl : n = 1 := by simpa using hb.symm
        exact .one
      | false =>
        obtain rfl : n = 0 := by simpa using hb.symm
        exact .zero
    | int m =>
      obtain rfl : m = n := by simpa [Json.agrees, Json.quantity?, Json.Quantity.agrees] using h
      exact .int n
    | float x => exact .float (by simpa [Json.agrees, Json.quantity?, Json.Quantity.agrees] using h)
    | string s => simp [Json.agrees] at h
    | array items => simp [Json.agrees] at h
    | object fields => simp [Json.agrees] at h
  · intro h
    cases h with
    | int => simp [Json.agrees, Json.quantity?, Json.Quantity.agrees]
    | float h => simp [Json.agrees, Json.quantity?, Json.Quantity.agrees, h]
    | one => simp [Json.agrees, Json.quantity?, Json.Quantity.agrees]
    | zero => simp [Json.agrees, Json.quantity?, Json.Quantity.agrees]

theorem isCount_iff : isCount (object.get? key) n = true ↔ Counts object key n := by
  simp only [isCount, Option.any_eq_true, agrees_int_iff, Counts]

theorem countLine_eq_nil_iff : countLine key (object.get? key) n things = [] ↔ Counts object key n := by
  rw [← isCount_iff, countLine]
  split_ifs with h <;> simp [h]

/-- The statuses that are counted are those of the outcomes that are objects. -/
theorem countStatus_eq (status : Status) (outcomes : List Json) :
    countStatus (outcomes.filterMap status?) status = outcomes.countP (hasStatus status) := by
  rw [countStatus, List.countP_filterMap]
  refine List.countP_congr fun outcome _ => ?_
  cases outcome with
  | object fields =>
    simp only [status?, hasStatus, Json.get?, Option.map_some, Option.getD_some]
    cases fields.lookup ("status" : Text) with
    | none => simp
    | some value => cases value <;> simp
  | _ => simp [status?, hasStatus, Json.get?]

theorem isCountable_iff {value : Json} : isCountable value = true ↔ value.kind ≠ .array ∧ value.kind ≠ .object := by
  cases value <;> simp [isCountable, Json.kind]

theorem find_uncountable_eq_none_iff : (outcomes.filterMap status?).find? (fun value => !isCountable value) = none ↔
    ∀ outcome ∈ outcomes, ∀ value, outcome.get? "status" = some value →
      value.kind ≠ .array ∧ value.kind ≠ .object := by
  rw [List.find?_eq_none, List.forall_mem_filterMap]
  refine forall₂_congr fun outcome _ => ?_
  cases outcome with
  | object fields =>
    simp only [status?, Json.get?]
    cases fields.lookup ("status" : Text) with
    | none => simp [isCountable]
    | some value => simp [← isCountable_iff]
  | _ => simp [status?, Json.get?]

theorem statusLines_eq_nil_iff : statusLines summary (outcomes.filterMap status?) = [] ↔
    ∀ entry ∈ countedStatuses, Counts summary entry.2 (outcomes.countP (hasStatus entry.1)) := by
  rw [statusLines, List.flatMap_eq_nil_iff]
  refine forall₂_congr fun entry _ => ?_
  rw [countLine_eq_nil_iff, countStatus_eq]

theorem listLines_eq_nil_iff : listLines report summary = [] ↔ ∀ entry ∈ countedLists, ∀ items,
    report.get? entry.1 = some (.array items) → Counts summary entry.2 items.length := by
  rw [listLines, List.flatMap_eq_nil_iff]
  refine forall₂_congr fun entry _ => ?_
  obtain ⟨list, key⟩ := entry
  dsimp only
  split
  · rename_i items hitems
    rw [countLine_eq_nil_iff, hitems]
    simp
  · rename_i hother
    exact iff_of_true rfl fun items hitems => absurd hitems (hother items)

/-- The counts of a report give no line exactly if the summary agrees with the lists. -/
theorem checkSummary_eq_nil_iff :
    checkSummary report = .ok [] ↔ ∃ summary outcomes, Summarizes report summary outcomes := by
  constructor
  · intro h
    unfold checkSummary at h
    split at h
    · split at h
      · rename_i fields outcomes hsummary houtcomes
        dsimp only at h
        split at h
        · cases h
        · rename_i hfind
          simp only [Except.ok.injEq, List.append_eq_nil_iff] at h
          obtain ⟨⟨hmethods, hstatuses⟩, hlists⟩ := h
          exact ⟨.object fields, outcomes,
            { hasSummary := hsummary
              isObject := rfl
              hasOutcomes := houtcomes
              methods := countLine_eq_nil_iff.1 hmethods
              statuses := statusLines_eq_nil_iff.1 hstatuses
              countable := find_uncountable_eq_none_iff.1 hfind
              lists := listLines_eq_nil_iff.1 hlists }⟩
      · simp at h
    · cases h
  · rintro ⟨summary, outcomes, h⟩
    cases report with
    | object _ =>
      cases summary with
      | object fields =>
        have hfind := find_uncountable_eq_none_iff.2 h.countable
        have hmethods : countLine "method_count" ((Json.object fields).get? "method_count") outcomes.length
            "outcomes" = [] :=
          countLine_eq_nil_iff.2 h.methods
        have hstatuses := statusLines_eq_nil_iff.2 h.statuses
        have hlists := listLines_eq_nil_iff.2 h.lists
        simp only [checkSummary, h.hasSummary, h.hasOutcomes, hfind, hmethods, hstatuses, hlists, List.append_nil]
      | _ => cases h.isObject
    | _ => cases h.hasSummary

end Counting

/-! ## Tables -/

section Tables

variable {tables : Table.Library} {tree : Tree} {root : Path} {report index table : Json} {outcomes : List Json}
  {path : Text}

theorem collect_eq_nil_iff {α : Type} {look : α → Except Fault (List Text)} {xs : List α} :
    collect look xs = .ok [] ↔ ∀ x ∈ xs, look x = .ok [] := by
  induction xs with
  | nil => simp [collect]
  | cons x xs ih =>
    rw [List.forall_mem_cons, ← ih, collect]
    cases look x with
    | error fault => simp [bind, Except.bind]
    | ok lines =>
      cases collect look xs with
      | error fault => simp [bind, Except.bind]
      | ok others => simp [bind, Except.bind, pure, Except.pure]

/-- A table is named for the methods. -/
theorem isNamed_iff : (table.get? "name").any (Json.agrees (.string tableName)) = true ↔
    table.get? "name" = some (.string tableName) := by
  cases table.get? "name" with
  | none => simp
  | some value =>
    cases value with
    | string word =>
      simp only [Option.any_some, Json.agrees, beq_iff_eq, Option.some.injEq, Json.string.injEq]
      exact eq_comm
    | _ => simp [Json.agrees]

theorem rowLines_eq_nil_iff (path : Text) {rows : Table.Rows}
    (houtcomes : report.get? "outcomes" = some (.array outcomes)) :
    rowLines report table path rows = [] ↔ Counts table "row_count" rows.count ∧
      (table.get? "name" = some (.string tableName) → rows.agrees (.array outcomes) = true) := by
  rw [rowLines, List.append_eq_nil_iff, houtcomes, Option.any_some, ← isCount_iff, ← isNamed_iff]
  cases isCount (table.get? "row_count") rows.count <;>
    cases (table.get? "name").any (Json.agrees (.string tableName)) <;>
    cases rows.agrees (.array outcomes) <;> simp

theorem tableAt_stray_eq_ok_iff {found : Option Table.Rows} (h : ¬ path.IsString) :
    tableAt tables tree root path = .ok found ↔ tables.stray tree root path = .ok found := by
  rw [tableAt, Option.not_isSome_iff_eq_none.1 (mt Text.isSome_string?_iff.1 h), mapError_eq_ok_iff]

/-- There are rows under a path, or there is no file of it. -/
theorem found_or_absent {found : Option Table.Rows} (h : tableAt tables tree root path = .ok found) :
    (∃ rows, found = some rows ∧ Found tables tree root path rows) ∨ found = none ∧ Absent tables tree root path := by
  by_cases hpath : path.IsString
  · obtain ⟨name, rfl⟩ := hpath
    rcases tableAt_name_eq_ok_iff.1 h with ⟨hfile, hfound⟩ | ⟨hfile, rows, hread, hfound⟩
    · exact .inr ⟨hfound, .file hfile⟩
    · exact .inl ⟨rows, hfound, .file hfile hread⟩
  · rw [tableAt_stray_eq_ok_iff hpath] at h
    cases found with
    | none => exact .inr ⟨rfl, .stray hpath h⟩
    | some rows => exact .inl ⟨rows, rfl, .stray hpath h⟩

theorem Found.tableAt {rows : Table.Rows} (h : Found tables tree root path rows) :
    tableAt tables tree root path = .ok (some rows) := by
  cases h with
  | file hfile hread => exact tableAt_name_eq_ok_iff.2 (.inr ⟨hfile, rows, hread, rfl⟩)
  | stray hpath hread => exact (tableAt_stray_eq_ok_iff hpath).2 hread

theorem Absent.tableAt (h : Absent tables tree root path) : tableAt tables tree root path = .ok none := by
  cases h with
  | file hfile => exact tableAt_name_eq_ok_iff.2 (.inl ⟨hfile, rfl⟩)
  | stray hpath hnone => exact (tableAt_stray_eq_ok_iff hpath).2 hnone

theorem tableAt_eq_some_iff {rows : Table.Rows} :
    tableAt tables tree root path = .ok (some rows) ↔ Found tables tree root path rows := by
  refine ⟨fun h => ?_, Found.tableAt⟩
  obtain ⟨_, ⟨⟩, hfound⟩ | ⟨⟨⟩, -⟩ := found_or_absent h
  exact hfound

theorem checkPath_eq_nil_iff (houtcomes : report.get? "outcomes" = some (.array outcomes)) :
    checkPath tables tree root report table (.string path) = .ok [] ↔ Backs tables tree root outcomes table path := by
  simp only [Backs, ← tableAt_eq_some_iff, ← rowLines_eq_nil_iff path houtcomes, checkPath]
  cases tableAt tables tree root path with
  | error fault => simp [bind, Except.bind]
  | ok found => cases found <;> simp [bind, Except.bind, pure, Except.pure]

theorem pathsOf_texts (texts : List Text) :
    pathsOf (some (.array (texts.map .string))) = .ok (texts.map .string) := by
  cases texts <;> rfl

/-- A table that is an object is checked path by path, and what is none has no paths. -/
theorem checkTable_eq_nil_iff (houtcomes : report.get? "outcomes" = some (.array outcomes))
    (htexts : table.get? "paths" = none ∨ table.get? "paths" = some .null ∨
      ∃ texts : List Text, table.get? "paths" = some (.array (texts.map .string))) :
    checkTable tables tree root report table = .ok [] ↔ ∀ path paths, table.get? "paths" = some (.array paths) →
      .string path ∈ paths → Backs tables tree root outcomes table path := by
  cases table with
  | object fields =>
    have hcheck : checkTable tables tree root report (.object fields) =
        pathsOf ((Json.object fields).get? "paths") >>= collect (checkPath tables tree root report (.object fields)) :=
      rfl
    rw [hcheck]
    rcases htexts with hpaths | hpaths | ⟨texts, hpaths⟩
    · rw [hpaths]
      exact iff_of_true rfl nofun
    · rw [hpaths]
      exact iff_of_true rfl nofun
    · rw [hpaths, pathsOf_texts]
      show collect _ _ = _ ↔ _
      rw [collect_eq_nil_iff, List.forall_mem_map]
      simp only [checkPath_eq_nil_iff houtcomes]
      constructor
      · intro h path paths heq hmem
        cases heq
        obtain ⟨text, htext, heq⟩ := List.mem_map.1 hmem
        cases heq
        exact h path htext
      · exact fun h path hmem => h path _ rfl (List.mem_map_of_mem hmem)
  | _ => exact iff_of_true rfl nofun

theorem checkIndex_eq_nil_iff (houtcomes : report.get? "outcomes" = some (.array outcomes))
    (htexts : ListsTexts index) : checkIndex tables tree root report index = .ok [] ↔
      (∃ listed, index.get? "tables" = some (.array listed)) ∧
        ∀ table path, Lists index table path → Backs tables tree root outcomes table path := by
  unfold checkIndex
  split
  · rename_i listed htables
    rw [collect_eq_nil_iff]
    constructor
    · intro h
      refine ⟨⟨listed, htables⟩, ?_⟩
      rintro table path ⟨other, paths, hother, hmem, hpaths, hpath⟩
      rw [htables] at hother
      cases hother
      exact (checkTable_eq_nil_iff houtcomes (htexts listed htables table hmem)).1 (h table hmem) path paths hpaths hpath
    · rintro ⟨-, h⟩ table hmem
      refine (checkTable_eq_nil_iff houtcomes (htexts listed htables table hmem)).2 ?_
      exact fun path paths hpaths hpath => h table path ⟨listed, paths, htables, hmem, hpaths, hpath⟩
  · rename_i hother
    exact iff_of_false (by simp) fun h => hother h.1.choose h.1.choose_spec

/-- The facts give no line exactly if their index can be read and its tables give none. -/
theorem checkFacts_eq_nil_iff {runtime : Runtime} : checkFacts runtime tree root report = .ok [] ↔
    ∃ index, Decodes (runtime.depth .factsIndex) tree (root.child factsIndexPath) index ∧
      checkIndex runtime.tables tree root report index = .ok [] := by
  rw [checkFacts_eq, examine_eq_ok_iff]
  simp

end Tables

/-! ## The verdict -/

section Verdict

variable {runtime : Runtime} {tree : Tree} {root : Path} {args : List String} {report index : Json}

theorem judge_iff : (∃ verdict, judge runtime tree root report = .ok verdict ∧ verdict.code = 0) ↔
    checkSummary report = .ok [] ∧ checkFacts runtime tree root report = .ok [] := by
  simp only [judge_eq_ok_iff]
  constructor
  · rintro ⟨verdict, ⟨lines, others, hlines, hothers, rfl⟩, hcode⟩
    obtain ⟨rfl, rfl⟩ := List.append_eq_nil_iff.1 (code_verdictOf_eq_zero_iff.1 hcode)
    exact ⟨hlines, hothers⟩
  · rintro ⟨hlines, hothers⟩
    exact ⟨_, ⟨[], [], hlines, hothers, rfl⟩, code_verdictOf_eq_zero_iff.2 rfl⟩

/-- A check that says that the report is fine has read it. -/
theorem passes_iff_judge (hfile : tree.probeFile (root.child fileName) = .ok true) (hasks : Asks tree args root) :
    Passes runtime tree args ↔ ∃ report, Decodes (runtime.depth .report) tree (root.child fileName) report ∧
      ∃ verdict, judge runtime tree root report = .ok verdict ∧ verdict.code = 0 := by
  constructor
  · rintro ⟨verdict, hrun, hcode⟩
    rw [run_eq_examine hfile hasks, examine_eq_ok_iff] at hrun
    rcases hrun with ⟨-, rfl⟩ | ⟨content, fault, place, -, -, rfl⟩ | ⟨report, hreport, hjudge⟩
    · cases hcode
    · cases hcode
    · exact ⟨report, hreport, verdict, hjudge, hcode⟩
  · rintro ⟨report, hreport, verdict, hjudge, hcode⟩
    exact ⟨verdict, (run_eq_judge hreport hasks).trans hjudge, hcode⟩

/-- A check of a directory with a report says that this is fine exactly if both documents can be read and are
consistent with what is read as the tables of their paths. -/
theorem passes_iff (hasks : Asks tree args root) (hfile : tree.probeFile (root.child fileName) = .ok true)
    (htexts : ∀ index, Decodes (runtime.depth .factsIndex) tree (root.child factsIndexPath) index → ListsTexts index) :
    Passes runtime tree args ↔ ∃ report index, Decodes (runtime.depth .report) tree (root.child fileName) report ∧
      Decodes (runtime.depth .factsIndex) tree (root.child factsIndexPath) index ∧
      Consistent runtime.tables tree root report index := by
  rw [passes_iff_judge hfile hasks]
  constructor
  · rintro ⟨report, hreport, hjudge⟩
    obtain ⟨hsummary, hfacts⟩ := judge_iff.1 hjudge
    obtain ⟨summary, outcomes, hsummarizes⟩ := checkSummary_eq_nil_iff.1 hsummary
    obtain ⟨index, hindex, hnil⟩ := checkFacts_eq_nil_iff.1 hfacts
    have htables := (checkIndex_eq_nil_iff hsummarizes.hasOutcomes (htexts index hindex)).1 hnil
    exact ⟨report, index, hreport, hindex, summary, outcomes, hsummarizes, htables⟩
  · rintro ⟨report, index, hreport, hindex, summary, outcomes, hsummarizes, htables⟩
    have hsummary := checkSummary_eq_nil_iff.2 ⟨summary, outcomes, hsummarizes⟩
    have hnil := (checkIndex_eq_nil_iff hsummarizes.hasOutcomes (htexts index hindex)).2 htables
    have hfacts := checkFacts_eq_nil_iff.2 ⟨index, hindex, hnil⟩
    exact ⟨report, hreport, judge_iff.2 ⟨hsummary, hfacts⟩⟩

/-- A check fails on a report with an integer of too many digits. -/
theorem run_of_longInt {content : Files.Content} {digits : Nat}
    (hread : tree.read (root.child fileName).text = .ok content)
    (hlong : Document.read (runtime.depth .report) content.toBytes = .error (.longInt digits))
    (hasks : Asks tree args root) : run runtime tree args = .error (.longInt digits) := by
  obtain ⟨place, hplace⟩ := Tree.holds_of_read hread
  rw [run_eq_examine hplace.probeFile hasks, examine_of_read hread, hlong]

end Verdict

/-! ## Directories with a report -/

/-- A directory with the two documents and some tables. -/
def kept (report index : Json) (tables : List (String × List FactRow)) : Tree :=
  ⟨["w"], [(["w", "report.json"], .file (.ofText report.document) false), (["w", "facts"], .directory),
    (["w", "facts", "index.json"], .file (.ofText index.document) false)] ++
      tables.map fun table => (["w", table.1], .file (.bytes (Columnar.Form.ofFacts table.2)) false)⟩

theorem read_kept (report index : Json) (tables : List (String × List FactRow)) :
    (kept report index tables).read ((Path.ofText ".").child fileName).text = .ok (.ofText report.document) ∧
      (kept report index tables).read ((Path.ofText ".").child factsIndexPath).text = .ok (.ofText index.document) :=
  ⟨rfl, rfl⟩

/-- The fields of a report without lists of names, of outcomes of which as many are applied as there are. -/
def reportOf (outcomes : List Json) (count : Json) : List (Text × Json) :=
  [("outcomes", .array outcomes), ("summary", .object
    [("method_count", count), ("applied_count", count), ("no_match_count", .int 0), ("unsupported_count", .int 0),
      ("type_error_count", .int 0)])]

/-- An index of one table of methods, with one path. -/
def indexOf (path : String) (rowCount : Nat) : Json :=
  .object [("tables", .array [.object
    [("name", .string tableName), ("paths", .ofStrings [path]), ("row_count", .int rowCount)]])]

theorem Decodes.unique {depth : Nat} {tree : Tree} {file : Path} {document other : Json}
    (h : Decodes depth tree file document) (h' : Decodes depth tree file other) : document = other := by
  obtain ⟨content, hread, hdocument⟩ := h
  obtain ⟨content', hread', hdocument'⟩ := h'
  rw [hread] at hread'
  cases hread'
  rw [hdocument] at hdocument'
  exact Except.ok.inj hdocument'

def appliedRow : FactRow := ⟨some 0, some "A.f", some "Java_A_f", some "applied", some 2, none⟩

/-- Two counts of this report are a boolean. -/
def loose : Tree := kept (.object (reportOf [appliedRow.toJson] (.bool true))) (indexOf "t" 1) [("t", [appliedRow])]

theorem loose_passes : Passes CommandLine.runtime loose ["."] ∧ ∃ report index,
    Decodes (CommandLine.runtime.depth .report) loose ((Path.ofText ".").child fileName) report ∧
    Decodes (CommandLine.runtime.depth .factsIndex) loose ((Path.ofText ".").child factsIndexPath) index ∧
    Consistent CommandLine.runtime.tables loose (Path.ofText ".") report index := by
  have hrun : run CommandLine.runtime loose ["."] = .ok ⟨0, ["Report ok: ."], []⟩ := by decide +kernel
  have hpasses : Passes CommandLine.runtime loose ["."] := ⟨_, hrun, rfl⟩
  refine ⟨hpasses, (passes_iff ⟨".", by decide, .inl rfl⟩ (by decide +kernel) fun index hindex => ?_).1 hpasses⟩
  have hkept : Decodes (CommandLine.runtime.depth .factsIndex) loose ((Path.ofText ".").child factsIndexPath)
      (indexOf "t" 1) := by
    have htable : (["name", "paths", "row_count"] : List String).Nodup := by decide
    have hplain : (indexOf "t" 1).Plain := Json.plain_object (by decide : ["tables"].Nodup) rfl
      ⟨⟨Json.plain_object htable rfl ⟨Json.plain_string _, Json.plain_ofStrings _, trivial, trivial⟩, trivial⟩, trivial⟩
    exact ⟨_, (read_kept _ _ _).2, Document.read_document hplain (by decide +kernel) (by decide +kernel)⟩
  obtain rfl := hindex.unique hkept
  intro tables htables table hmem
  cases htables
  obtain rfl := List.mem_singleton.1 hmem
  exact .inr (.inr ⟨["t"], rfl⟩)

/-- The least integer of too many digits stands first in this report, under a key that nobody looks up. -/
def oversizedReport : Json := .object (("big", .int (10 ^ Json.maxIntDigits : Nat)) :: reportOf [] (.int 0))

/-- An index that lists no tables. -/
def vacantIndex : Json := .object [("tables", .array [])]

def oversized : Tree := kept oversizedReport vacantIndex []

theorem plain_oversizedReport : oversizedReport.Plain := by
  have hcounts : (["method_count", "applied_count", "no_match_count", "unsupported_count", "type_error_count"] :
    List String).Nodup := by decide
  exact Json.plain_object (by decide : ["big", "outcomes", "summary"].Nodup) rfl
    ⟨trivial, trivial, Json.plain_object hcounts rfl ⟨trivial, trivial, trivial, trivial, trivial, trivial⟩, trivial⟩

theorem length_toDigits_pow (n : Nat) : (Nat.toDigits 10 (10 ^ (n + 1))).length = n + 2 := by
  have hmost := (Nat.length_toDigits_le_iff (show 1 < 10 by decide) (show 0 < n + 2 by omega)).2
    (Nat.pow_lt_pow_right (show 1 < 10 by decide) (Nat.lt_succ_self (n + 1)))
  have hleast := mt (Nat.length_toDigits_le_iff (show 1 < 10 by decide) (show 0 < n + 1 by omega)).1
    (Nat.lt_irrefl (10 ^ (n + 1)))
  omega

theorem read_oversizedReport {depth : Nat} (hd : 0 < depth) :
    Document.read depth (Files.Content.ofText oversizedReport.document).toBytes = .error (.longInt 4301) := by
  have hlength : (Nat.toDigits 10 (10 ^ Json.maxIntDigits)).length = 4301 := by
    rw [show Json.maxIntDigits = 4299 + 1 from rfl, length_toDigits_pow]
  have hlong : Json.maxIntDigits < (Nat.toDigits 10 (10 ^ Json.maxIntDigits)).length := by
    rw [hlength]
    decide
  rw [Document.read_eq_ofText plain_oversizedReport, Document.ofText, oversizedReport,
    Json.ofText_document_longInt hd hlong, hlength]

theorem consistent_oversized (tables : Table.Library) :
    Consistent tables oversized (Path.ofText ".") oversizedReport vacantIndex := by
  have hnone : Counts (.object [("method_count", .int 0), ("applied_count", .int 0), ("no_match_count", .int 0),
      ("unsupported_count", .int 0), ("type_error_count", .int 0)]) "method_count" 0 := ⟨_, rfl, .int 0⟩
  refine ⟨_, [], ⟨rfl, rfl, rfl, hnone, ?_, List.forall_mem_nil _, ?_⟩, ⟨[], rfl⟩, ?_⟩
  · simp only [countedStatuses, List.forall_mem_cons]
    exact ⟨⟨_, rfl, .int 0⟩, ⟨_, rfl, .int 0⟩, ⟨_, rfl, .int 0⟩, ⟨_, rfl, .int 0⟩, List.forall_mem_nil _⟩
  · -- The report has no lists of names.
    intro entry hentry items hitems
    simp only [countedLists, List.mem_cons, List.not_mem_nil, or_false] at hentry
    rcases hentry with rfl | rfl <;> cases hitems
  · rintro table path ⟨listed, paths, hlisted, hmem, -⟩
    cases hlisted
    cases hmem

/-- Though the documents are consistent, the check of the directory fails. -/
theorem oversized_fails :
    oversized.read ((Path.ofText ".").child fileName).text = .ok (.ofText oversizedReport.document) ∧
    oversized.read ((Path.ofText ".").child factsIndexPath).text = .ok (.ofText vacantIndex.document) ∧
    ListsTexts vacantIndex ∧
    Consistent CommandLine.runtime.tables oversized (Path.ofText ".") oversizedReport vacantIndex ∧
    run CommandLine.runtime oversized ["."] = .error (.longInt 4301) := by
  obtain ⟨hread, hindex⟩ := read_kept oversizedReport vacantIndex []
  rw [← oversized] at hread hindex
  refine ⟨hread, hindex, ?_, consistent_oversized _, ?_⟩
  · rintro tables htables table hmem
    cases htables
    cases hmem
  · exact run_of_longInt hread (read_oversizedReport (by decide)) ⟨".", by decide, .inl rfl⟩

end JniSignatures.Audit
