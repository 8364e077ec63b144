import Mathlib
import JniSignatures.Proofs.Script.Course
/-!
# Which archive is taken

An archive that is open in the tool under the standard name is taken as it is. Only if there is none that the
tool lists, and whose name it can tell, is a file opened: the one that is given, or else the one that the module
has, which is asked for then. `acquire_selects` says which archive comes of this, with all calls that are made
on the way, whatever the tool refuses to tell; every failure is one of setting up the catalog.
-/

namespace JniSignatures.Archive

section Selection

variable {desk : Desk} {given : Option String} {archive : Archive}

/-- The archive is the first of the standard name among those that the tool lists. One whose name cannot be told
is passed over. -/
def IsOpen (desk : Desk) (archive : Archive) : Prop :=
  ∃ before found after, desk.service = some ⟨some (before ++ found :: after)⟩ ∧
    (∀ other ∈ before, other.name ≠ some standardName) ∧ found.name = some standardName ∧ found.archive = archive

/-- The file to open: the one that is given, unless that is empty, or else the one that the module has. -/
def wanted (desk : Desk) (given : Option String) : Option String :=
  given.filter (· ≠ "") <|> desk.moduleFile

/-- The calls made to learn the file: the module is asked if none is given. -/
def asking (given : Option String) : List Call :=
  if given.filter (· ≠ "") = none then [.findModuleFile moduleName standardFile] else []

/-- What comes of the file to open, with the calls that are made. -/
structure Opens (desk : Desk) (given : Option String) (tree : Files.Tree) (result : Except Fault Archive)
    (made : List Call) : Prop where
  /-- No file is given, and the module has none. -/
  unknown : wanted desk given = none → result = .error .notInModule ∧ made = asking given
  absent : ∀ path, wanted desk given = some path → tree.isFile path = false →
    result = .error (.notFound path) ∧ made = asking given
  /-- The file is opened once, through the tool if there is a service. -/
  opened : ∀ path, wanted desk given = some path → tree.isFile path = true →
    made = asking given ++ [if desk.service.isSome then .openInTool path else .openFile path] ∧
    result = match desk.openRefusal with
      | some message => .error (.notOpened path message)
      | none => .ok ⟨(if desk.service.isSome then "service:" else "file:") ++ path, desk.types⟩

/-- How an archive is taken, with the calls that are made. -/
structure Selects (desk : Desk) (given : Option String) (tree : Files.Tree) (result : Except Fault Archive)
    (made : List Call) : Prop where
  /-- With an archive open in the tool nothing is asked and nothing is opened. -/
  standing : ∀ archive, IsOpen desk archive → result = .ok archive ∧ made = []
  otherwise : (∀ archive, ¬ IsOpen desk archive) → Opens desk given tree result made
  /-- There is an archive, or the catalog cannot be set up. -/
  kind : ∀ fault, result = .error fault → fault.kind = .catalogSetup

theorem findOpen_eq_some_iff : findOpen desk.service standardName = some archive ↔ IsOpen desk archive := by
  unfold findOpen IsOpen
  rcases desk.service with _ | ⟨_ | listed⟩
  · simp
  · simp
  · simp only [Option.bind_eq_bind, Option.bind_some, Option.pure_def, Option.bind_eq_some_iff, Option.some.injEq,
      List.find?_eq_some_iff_append, ArchiveService.mk.injEq]
    constructor
    · rintro ⟨found, ⟨hname, before, after, rfl, hbefore⟩, rfl⟩
      exact ⟨before, found, after, rfl, by simpa using hbefore, by simpa using hname, rfl⟩
    · rintro ⟨before, found, after, rfl, hbefore, hname, rfl⟩
      exact ⟨found, ⟨by simpa using hname, before, after, rfl, by simpa using hbefore⟩, rfl⟩

theorem wanted_of_choice {path : String} {made : List Call} (h : Choice desk given path made) :
    wanted desk given = some path ∧ made = asking given := by
  unfold wanted asking
  cases h with
  | given h =>
    rw [h]
    exact ⟨rfl, rfl⟩
  | inModule h hmodule =>
    rw [h, hmodule]
    exact ⟨rfl, rfl⟩

section Opening

variable {tree : Files.Tree} {result : Except Fault Archive} {made : List Call} {path : String}

theorem opens_of_unknown (hwanted : wanted desk given = none) :
    Opens desk given tree (.error .notInModule) (asking given) where
  unknown _ := ⟨rfl, rfl⟩
  absent path hpath := by
    rw [hwanted] at hpath
    cases hpath
  opened path hpath := by
    rw [hwanted] at hpath
    cases hpath

theorem opens_of_absent (hwanted : wanted desk given = some path) (hfile : tree.isFile path = false) :
    Opens desk given tree (.error (.notFound path)) (asking given) where
  unknown hnone := by
    rw [hwanted] at hnone
    cases hnone
  absent other hother _ := by
    rw [hwanted] at hother
    cases hother
    exact ⟨rfl, rfl⟩
  opened other hother hthere := by
    rw [hwanted] at hother
    cases hother
    rw [hfile] at hthere
    cases hthere

theorem opens_of_opened (hwanted : wanted desk given = some path) (hfile : tree.isFile path = true)
    (hresult : result = match desk.openRefusal with
      | some message => .error (.notOpened path message)
      | none => .ok (ofFile desk path)) :
    Opens desk given tree result (asking given ++ [openingCall desk path]) where
  unknown hnone := by
    rw [hwanted] at hnone
    cases hnone
  absent other hother hthere := by
    rw [hwanted] at hother
    cases hother
    rw [hfile] at hthere
    cases hthere
  opened other hother _ := by
    rw [hwanted] at hother
    cases hother
    exact ⟨rfl, hresult⟩

theorem opens_of_search (hnone : ∀ archive, ¬ IsOpen desk archive) (h : Search desk given tree result made) :
    Opens desk given tree result made := by
  cases h with
  | @found archive hopen => exact absurd (findOpen_eq_some_iff.1 hopen) (hnone archive)
  | notInModule hopen hgiven hmodule =>
    have hwanted : wanted desk given = none := by
      rw [wanted, hgiven, hmodule]
      rfl
    have hasking : asking given = [.findModuleFile moduleName standardFile] := by rw [asking, if_pos hgiven]
    rw [← hasking]
    exact opens_of_unknown hwanted
  | notFound hopen choice hfile =>
    obtain ⟨hwanted, rfl⟩ := wanted_of_choice choice
    exact opens_of_absent hwanted hfile
  | refused hopen choice hfile hrefusal =>
    obtain ⟨hwanted, rfl⟩ := wanted_of_choice choice
    exact opens_of_opened hwanted hfile (by rw [hrefusal])
  | opened hopen choice hfile hrefusal =>
    obtain ⟨hwanted, rfl⟩ := wanted_of_choice choice
    exact opens_of_opened hwanted hfile (by rw [hrefusal])

end Opening

/-- An archive that is open ends the search. -/
theorem eq_of_isOpen {tree : Files.Tree} {result : Except Fault Archive} {made : List Call} (hstanding : IsOpen desk archive)
    (h : Search desk given tree result made) : result = .ok archive ∧ made = [] := by
  have hfound := findOpen_eq_some_iff.2 hstanding
  cases h with
  | found hopen =>
    rw [hfound] at hopen
    cases hopen
    exact ⟨rfl, rfl⟩
  | notInModule hopen | notFound hopen | refused hopen | opened hopen =>
    rw [hfound] at hopen
    cases hopen

/-- An archive is taken, or the catalog cannot be set up: the first archive of the standard name that is open in
the tool, or else that of the file that is given or that the module has, which is then opened once. Nothing but
the calls is left of it. -/
theorem acquire_selects (desk : Desk) (given : Option String) (w : Workspace) :
    ∃ result made, exec (acquire desk given) w = (result, w.called made) ∧ Selects desk given w.tree result made := by
  obtain ⟨result, made, search⟩ := exists_search desk given w.tree
  exact ⟨result, made, search.exec_acquire,
    { standing := fun archive hopen => eq_of_isOpen hopen search
      otherwise := fun hnone => opens_of_search hnone search
      kind := fun fault _ => rfl }⟩

end Selection

end JniSignatures.Archive
