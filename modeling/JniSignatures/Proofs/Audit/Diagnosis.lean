import Mathlib
import JniSignatures.Proofs.Audit.Meaning
/-!
# When a check ends in a diagnosis

A check that returns has a verdict, and says what is wrong unless all is well (`conclusive_of_run`). But it does
not always return: it goes through two documents that may hold anything, and some of what they may hold no
step of it can take. Which documents it can take is said here by their shape (`Countable`, `Traversable`), and a
check returns exactly if the documents can be read and are such, or are no JSON, or are not there
(`run_returns_iff`). A document that is nested too deep, or has an integer of too many digits, cannot be read.
-/

namespace JniSignatures.Audit

open Files (Path Tree)
open Report (fileName factsIndexPath)

/-! ## What a check can take -/

/-- A computation that may fail returns. -/
def Returns {ε α : Type} (x : Except ε α) : Prop :=
  ∃ y, x = .ok y

/-- A check can take what a file holds: there is no such file, or it holds no JSON, or it holds a document of
the right shape. -/
inductive Fit (depth : Nat) (tree : Tree) (file : Path) (shape : Json → Prop) : Prop
  | missing (absent : tree.probeFile file = .ok false)
  | malformed {content : Files.Content} {fault : Json.Fault} {place : Text.Place}
      (read : tree.read file.text = .ok content)
      (refused : Document.read depth content.toBytes = .error (.malformed fault place))
  | document {document : Json} (decodes : Decodes depth tree file document) (shaped : shape document)

/-- The counts of a report can be taken: it is an object, and if it has a summary and outcomes, then no outcome
has a list or an object for its status. -/
structure Countable (report : Json) : Prop where
  isObject : report.kind = .object
  statuses : ∀ summary outcomes, report.get? "summary" = some summary → summary.kind = .object →
    report.get? "outcomes" = some (.array outcomes) → ∀ outcome ∈ outcomes, ∀ status,
      outcome.get? "status" = some status → status.kind ≠ .array ∧ status.kind ≠ .object

/-- A table of an index has something for its paths. -/
def ListsPaths (index paths : Json) : Prop :=
  ∃ tables table, index.get? "tables" = some (.array tables) ∧ table ∈ tables ∧ table.get? "paths" = some paths

/-- What a value gives when it is gone through: the items of a list, the code points of a text, the keys of an
object. -/
inductive Yields : Json → Json → Prop
  | item {items : List Json} {item : Json} (mem : item ∈ items) : Yields (.array items) item
  | point {text : Text} {c : CodePoint} (mem : c ∈ text.points) : Yields (.string text) (.string ⟨[c]⟩)
  | key {fields : List (Text × Json)} {entry : Text × Json} (mem : entry ∈ fields) :
      Yields (.object fields) (.string entry.1)

/-- A path is a text, and there is no file of that path in the report's directory or a table can be read there. -/
inductive Reachable (tables : Table.Library) (tree : Tree) (root : Path) : Json → Prop
  | missing {path : Text} (absent : Absent tables tree root path) : Reachable tables tree root (.string path)
  | table {path : Text} {rows : Table.Rows} (found : Found tables tree root path rows) :
      Reachable tables tree root (.string path)

/-- The tables of an index can be gone through. -/
structure Traversable (tables : Table.Library) (tree : Tree) (root : Path) (index : Json) : Prop where
  iterable : ∀ paths, ListsPaths index paths →
    paths.isEmpty = true ∨ paths.kind = .array ∨ paths.kind = .string ∨ paths.kind = .object
  reachable : ∀ paths path, ListsPaths index paths → Yields paths path → Reachable tables tree root path

/-! ## Returning -/

section Returning

variable {ε α β : Type}

theorem returns_ok (y : α) : Returns (.ok y : Except ε α) :=
  ⟨y, rfl⟩

theorem not_returns_error (e : ε) : ¬ Returns (.error e : Except ε α) :=
  nofun

theorem returns_bind_iff {x : Except ε α} {next : α → Except ε β} :
    Returns (x >>= next) ↔ ∃ y, x = .ok y ∧ Returns (next y) := by
  simp only [Returns, bind_eq_ok_iff]
  exact ⟨fun ⟨z, y, hy, hz⟩ => ⟨y, hy, z, hz⟩, fun ⟨y, hy, z, hz⟩ => ⟨z, y, hy, hz⟩⟩

/-- A list of checks returns if all of them do. -/
theorem collect_returns_iff {look : α → Except Fault (List Text)} {xs : List α} :
    Returns (collect look xs) ↔ ∀ x ∈ xs, Returns (look x) := by
  induction xs with
  | nil => exact iff_of_true (returns_ok _) (List.forall_mem_nil _)
  | cons x xs ih =>
    rw [List.forall_mem_cons, ← ih, collect, returns_bind_iff]
    constructor
    · rintro ⟨lines, hlines, h⟩
      obtain ⟨others, hothers, -⟩ := returns_bind_iff.1 h
      exact ⟨⟨lines, hlines⟩, others, hothers⟩
    · rintro ⟨⟨lines, hlines⟩, others, hothers⟩
      exact ⟨lines, hlines, returns_bind_iff.2 ⟨others, hothers, returns_ok _⟩⟩

end Returning

/-! ## Counts -/

theorem checkSummary_returns_iff {report : Json} : Returns (checkSummary report) ↔ Countable report := by
  cases report with
  | object fields =>
    unfold checkSummary
    dsimp only
    split
    · rename_i summary outcomes hsummary houtcomes
      split
      · rename_i value hfind
        refine iff_of_false (not_returns_error _) fun h => ?_
        rw [find_uncountable_eq_none_iff.2 fun outcome hmem status hstatus =>
          h.statuses _ outcomes hsummary rfl houtcomes outcome hmem status hstatus] at hfind
        cases hfind
      · rename_i hfind
        refine iff_of_true (returns_ok _) ⟨rfl, fun _ others _ _ hothers outcome hmem => ?_⟩
        obtain rfl : others = outcomes := by simpa using hothers.symm.trans houtcomes
        exact find_uncountable_eq_none_iff.1 hfind outcome hmem
    · rename_i hnone
      refine iff_of_true (returns_ok _) ⟨rfl, fun summary outcomes hsummary hobject houtcomes => ?_⟩
      cases summary with
      | object counts => exact (hnone counts outcomes hsummary houtcomes).elim
      | _ => cases hobject
  | _ =>
    refine iff_of_false (not_returns_error _) fun h => ?_
    cases h.isObject

/-! ## Tables -/

section Tables

variable {tables : Table.Library} {tree : Tree} {root : Path} {report index table paths path : Json}
  {items : List Json}

theorem pathsOf_returns_iff : Returns (pathsOf (some paths)) ↔
    paths.isEmpty = true ∨ paths.kind = .array ∨ paths.kind = .string ∨ paths.kind = .object := by
  unfold pathsOf
  by_cases hempty : paths.isEmpty
  · exact iff_of_true (by simp [hempty, Returns]) (.inl hempty)
  · cases paths <;> simp [hempty, Json.kind, Returns]

theorem not_yields_of_isEmpty (h : paths.isEmpty) : ¬ Yields paths path := by
  intro hyields
  cases hyields with
  | item mem =>
    obtain rfl := List.isEmpty_iff.1 h
    cases mem
  | point mem =>
    rw [List.isEmpty_iff.1 h] at mem
    cases mem
  | key mem =>
    obtain rfl := List.isEmpty_iff.1 h
    cases mem

/-- The paths of a table are what the value for them gives. -/
theorem mem_pathsOf_iff (h : pathsOf (some paths) = .ok items) : path ∈ items ↔ Yields paths path := by
  unfold pathsOf at h
  dsimp only at h
  split_ifs at h with hempty
  · obtain rfl := Except.ok.inj h
    exact iff_of_false List.not_mem_nil (not_yields_of_isEmpty hempty)
  · cases paths with
    | array others =>
      obtain rfl := Except.ok.inj h
      exact ⟨.item, fun hyields => by cases hyields; assumption⟩
    | string text =>
      obtain rfl := Except.ok.inj h
      rw [List.mem_map]
      constructor
      · rintro ⟨c, hc, rfl⟩
        exact .point hc
      · intro hyields
        cases hyields with
        | point mem => exact ⟨_, mem, rfl⟩
    | object fields =>
      obtain rfl := Except.ok.inj h
      rw [List.mem_map]
      constructor
      · rintro ⟨entry, hentry, rfl⟩
        exact .key hentry
      · intro hyields
        cases hyields with
        | key mem => exact ⟨_, mem, rfl⟩
    | _ => cases h

theorem checkPath_returns_iff :
    Returns (checkPath tables tree root report table path) ↔ Reachable tables tree root path := by
  cases path with
  | string text =>
    rw [checkPath, returns_bind_iff]
    constructor
    · rintro ⟨found, hfound, -⟩
      obtain ⟨_, -, hrows⟩ | ⟨-, hnone⟩ := found_or_absent hfound
      · exact .table hrows
      · exact .missing hnone
    · intro h
      cases h with
      | missing absent => exact ⟨none, absent.tableAt, returns_ok _⟩
      | table found => exact ⟨_, found.tableAt, returns_ok _⟩
  | _ =>
    refine iff_of_false (not_returns_error _) fun h => ?_
    cases h

/-- A table is checked if its paths can be gone through and each can be reached. -/
theorem checkTable_returns_iff : Returns (checkTable tables tree root report table) ↔
    ∀ paths, table.get? "paths" = some paths →
      (paths.isEmpty = true ∨ paths.kind = .array ∨ paths.kind = .string ∨ paths.kind = .object) ∧
        ∀ path, Yields paths path → Reachable tables tree root path := by
  cases table with
  | object fields =>
    rw [checkTable, returns_bind_iff]
    cases hpaths : (Json.object fields).get? "paths" with
    | none =>
      refine iff_of_true ⟨[], rfl, returns_ok _⟩ fun paths hpaths => ?_
      cases hpaths
    | some paths =>
      simp only [Option.some.injEq, forall_eq', collect_returns_iff, checkPath_returns_iff]
      constructor
      · rintro ⟨items, hitems, h⟩
        exact ⟨pathsOf_returns_iff.1 ⟨items, hitems⟩, fun path hyields => h path ((mem_pathsOf_iff hitems).2 hyields)⟩
      · rintro ⟨hiterable, h⟩
        obtain ⟨items, hitems⟩ := pathsOf_returns_iff.2 hiterable
        exact ⟨items, hitems, fun path hmem => h path ((mem_pathsOf_iff hitems).1 hmem)⟩
  | _ =>
    refine iff_of_true (returns_ok _) fun paths hpaths => ?_
    cases hpaths

theorem checkIndex_returns_iff :
    Returns (checkIndex tables tree root report index) ↔ Traversable tables tree root index := by
  unfold checkIndex
  split
  · rename_i listed hlisted
    rw [collect_returns_iff]
    simp only [checkTable_returns_iff]
    constructor
    · intro h
      refine ⟨?_, ?_⟩
      · rintro paths ⟨others, table, hothers, hmem, hpaths⟩
        obtain rfl : others = listed := by simpa using hothers.symm.trans hlisted
        exact (h table hmem paths hpaths).1
      · rintro paths path ⟨others, table, hothers, hmem, hpaths⟩
        obtain rfl : others = listed := by simpa using hothers.symm.trans hlisted
        exact (h table hmem paths hpaths).2 path
    · intro h table hmem paths hpaths
      have hlists : ListsPaths index paths := ⟨listed, table, hlisted, hmem, hpaths⟩
      exact ⟨h.iterable paths hlists, fun path => h.reachable paths path hlists⟩
  · rename_i hnone
    refine iff_of_true (returns_ok _) ⟨?_, ?_⟩
    · rintro paths ⟨listed, table, hlisted, -⟩
      exact (hnone listed hlisted).elim
    · rintro paths path ⟨listed, table, hlisted, -⟩
      exact (hnone listed hlisted).elim

end Tables

/-! ## Documents -/

section Documents

variable {runtime : Runtime} {tree : Tree} {root file : Path} {report : Json}

theorem examine_returns_iff {depth : Nat} {α : Type} {absent : α} {refused : Json.Fault → Text.Place → α}
    {next : Json → Except Fault α} {shape : Json → Prop}
    (hnext : ∀ document, Returns (next document) ↔ shape document) :
    Returns (examine depth tree file absent refused next) ↔ Fit depth tree file shape := by
  constructor
  · rintro ⟨y, h⟩
    rcases examine_eq_ok_iff.1 h with ⟨hfile, -⟩ | ⟨content, fault, place, hread, hdocument, -⟩ | ⟨document, hd, h⟩
    · exact .missing hfile
    · exact .malformed hread hdocument
    · exact .document hd ((hnext document).1 ⟨y, h⟩)
  · intro h
    cases h with
    | missing hfile => exact ⟨_, examine_eq_ok_iff.2 (.inl ⟨hfile, rfl⟩)⟩
    | malformed hread hdocument => exact ⟨_, examine_eq_ok_iff.2 (.inr (.inl ⟨_, _, _, hread, hdocument, rfl⟩))⟩
    | document hd hshape =>
      obtain ⟨y, h⟩ := (hnext _).2 hshape
      exact ⟨y, examine_eq_ok_iff.2 (.inr (.inr ⟨_, hd, h⟩))⟩

/-- A check can take the facts of a report. -/
def FactsFit (runtime : Runtime) (tree : Tree) (root : Path) : Prop :=
  Fit (runtime.depth .factsIndex) tree (root.child factsIndexPath) (Traversable runtime.tables tree root)

theorem checkFacts_returns_iff : Returns (checkFacts runtime tree root report) ↔ FactsFit runtime tree root := by
  rw [checkFacts_eq]
  exact examine_returns_iff fun _ => checkIndex_returns_iff

theorem judge_returns_iff :
    Returns (judge runtime tree root report) ↔ Countable report ∧ FactsFit runtime tree root := by
  rw [← checkSummary_returns_iff, ← @checkFacts_returns_iff runtime tree root report]
  constructor
  · rintro ⟨verdict, h⟩
    obtain ⟨lines, others, hlines, hothers, -⟩ := judge_eq_ok_iff.1 h
    exact ⟨⟨lines, hlines⟩, others, hothers⟩
  · rintro ⟨⟨lines, hlines⟩, others, hothers⟩
    exact ⟨_, judge_eq_ok_iff.2 ⟨lines, others, hlines, hothers, rfl⟩⟩

end Documents

/-! ## Verdicts -/

/-- A verdict has one of three codes, and says what is wrong unless its code is 0. -/
def Verdict.Conclusive (verdict : Verdict) : Prop :=
  verdict.code = 0 ∧ verdict.complaints = [] ∨ (verdict.code = 1 ∨ verdict.code = 2) ∧ verdict.complaints ≠ []

theorem conclusive_verdictOf (root : Path) (lines : List Text) : (verdictOf root lines).Conclusive := by
  unfold verdictOf
  split_ifs
  · exact .inl ⟨rfl, rfl⟩
  · exact .inr ⟨.inl rfl, nofun⟩

theorem conclusive_of_check {runtime : Runtime} {tree : Tree} {path : String} {verdict : Verdict}
    (h : check runtime tree path = .ok verdict) : verdict.Conclusive := by
  rw [check_eq] at h
  obtain ⟨root, -, h⟩ := bind_eq_ok_iff.1 h
  rcases examine_eq_ok_iff.1 h with ⟨-, rfl⟩ | ⟨content, fault, place, -, -, rfl⟩ | ⟨report, -, h⟩
  · exact .inr ⟨.inr rfl, nofun⟩
  · exact .inr ⟨.inl rfl, nofun⟩
  · obtain ⟨lines, others, -, -, rfl⟩ := judge_eq_ok_iff.1 h
    exact conclusive_verdictOf root _

theorem conclusive_of_run {runtime : Runtime} {tree : Tree} {args : List String} {verdict : Verdict}
    (h : run runtime tree args = .ok verdict) : verdict.Conclusive := by
  unfold run at h
  split at h
  · exact conclusive_of_check h
  · obtain rfl := Except.ok.inj h
    exact .inl ⟨rfl, rfl⟩
  · obtain rfl := Except.ok.inj h
    exact .inr ⟨.inr rfl, nofun⟩

theorem check_returns_iff {runtime : Runtime} {tree : Tree} {path : String} : Returns (check runtime tree path) ↔
    ∃ root, findRoot tree (Path.ofText path) = .ok root ∧
      Fit (runtime.depth .report) tree (root.child fileName) fun report =>
        Countable report ∧ FactsFit runtime tree root := by
  rw [check_eq, returns_bind_iff]
  simp only [mapError_eq_ok_iff, examine_returns_iff fun _ => judge_returns_iff]

/-- A check that returns has a verdict with one of three codes, and complains unless the code is 0. It returns
exactly if it is not asked for a report, or it can tell where the report is and take its documents: each of
them is not there, or is no JSON, or is a document of the right shape, where the paths that the index lists
are texts of which each leads to no file or to a table that can be read. -/
theorem run_returns_iff (runtime : Runtime) (tree : Tree) (args : List String) :
    (∀ verdict, run runtime tree args = .ok verdict → verdict.Conclusive) ∧
    ((∃ verdict, run runtime tree args = .ok verdict) ↔ ∀ path, Request.ofArgs args = .check path →
      ∃ root, findRoot tree (Path.ofText path) = .ok root ∧
        Fit (runtime.depth .report) tree (root.child fileName) fun report =>
          Countable report ∧ FactsFit runtime tree root) := by
  refine ⟨fun verdict => conclusive_of_run, ?_⟩
  unfold run
  cases Request.ofArgs args with
  | check path =>
    simp only [Request.check.injEq, forall_eq']
    exact check_returns_iff
  | help => exact iff_of_true ⟨_, rfl⟩ nofun
  | misuse message => exact iff_of_true ⟨_, rfl⟩ nofun

/-- A directory in which `report.json` is a list. -/
def listed : Tree :=
  ⟨["w"], [(["w", "report.json"], .file (.ofText "[]".toList) false)]⟩

/-- A report that is a list is a document, but there is no diagnosis of it. -/
theorem listed_undiagnosed :
    Decodes (CommandLine.runtime.depth .report) listed ((Path.ofText ".").child fileName) (.array []) ∧
      run CommandLine.runtime listed ["."] = .error (.noFields .array) :=
  ⟨⟨_, rfl, rfl⟩, rfl⟩

end JniSignatures.Audit
