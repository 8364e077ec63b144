import Mathlib
import JniSignatures.Main
import JniSignatures.Proofs.Script.Course
/-!
# Who closes the archive

A run closes an archive if and only if it has opened one for itself: that one, once, and as its last call
(`Custody`). It does so however the pass ends, since the calls of a run have one of four shapes by what is
opened (`Keeping`): nothing, a file in the tool, a file that the host refuses to open, or a file of the run's
own, which is closed in the end. A run opens a file of its own only where no tool offers a service: there is no
tool, or it has none, or it cannot be told. If the host refuses to close the archive, nothing comes of that.
-/

namespace JniSignatures

/-- Whether a call opens or closes an archive. -/
def Call.isOfArchive : Call → Bool
  | .openInTool _ | .openFile _ | .close _ => true
  | _ => false

namespace Script

/-- Among the calls of a run an archive is closed if and only if one is opened for the run alone: that one, by
the last of the calls and by no other. -/
structure Custody (desk : Desk) (own : List Call) : Prop where
  closed_iff : (∃ label, .close label ∈ own) ↔ ∃ path, .openFile path ∈ own ∧ desk.openRefusal = none
  closing : ∀ label, .close label ∈ own → ∃ path before between,
    own = before ++ .openFile path :: (between ++ [.close label]) ∧ label = "file:" ++ path ∧
      ∀ call ∈ before ++ between, call.isOfArchive = false
  /-- Where the tool has a service, nothing is opened for the run alone, and nothing is closed. -/
  served : ∀ service, desk.tool = .serving service → ∀ call ∈ own, (∀ path, call ≠ .openFile path) ∧
    ∀ label, call ≠ .close label
  /-- What is open in the tool stays open. -/
  lent : (∃ archive, Archive.findOpen desk.service Archive.standardName = some archive) ∨
    (∃ path, .openInTool path ∈ own) → ∀ label, .close label ∉ own

/-! ## The four shapes -/

/-- The calls by which a run opens an archive, and those by which it closes one. -/
inductive Keeping (desk : Desk) : List Call → List Call → Prop where
  | nothing : Keeping desk [] []
  | lent {path : String} : Keeping desk [.openInTool path] []
  | refused {path message : String} (hservice : desk.service = none) (hrefusal : desk.openRefusal = some message) :
    Keeping desk [.openFile path] []
  | own {path : String} (hservice : desk.service = none) (hrefusal : desk.openRefusal = none) :
    Keeping desk [.openFile path] [.close ("file:" ++ path)]

section Shapes

variable {desk : Desk} {options : Options} {methodsPath : String} {w w' : Workspace}

theorem Keeping.custody {opening closing before between : List Call} (h : Keeping desk opening closing)
    (hbefore : ∀ call ∈ before, call.isOfArchive = false) (hbetween : ∀ call ∈ between, call.isOfArchive = false) :
    Custody desk (before ++ opening ++ between ++ closing) := by
  have harchive : ∀ call : Call, call.isOfArchive = true → call ∉ before ∧ call ∉ between := by
    intro call hcall
    constructor
    · intro hm
      rw [hbefore call hm] at hcall
      cases hcall
    · intro hm
      rw [hbetween call hm] at hcall
      cases hcall
  have hclose : ∀ label, Call.close label ∉ before ∧ Call.close label ∉ between := fun _ => harchive _ rfl
  have hopen : ∀ path, Call.openFile path ∉ before ∧ Call.openFile path ∉ between := fun _ => harchive _ rfl
  have htool : ∀ path, Call.openInTool path ∉ before ∧ Call.openInTool path ∉ between := fun _ => harchive _ rfl
  have hquiet : ∀ call ∈ before ++ between, (∀ path, call ≠ .openFile path) ∧ ∀ label, call ≠ .close label := by
    intro call hcall
    have hnone : call.isOfArchive = false := List.forall_mem_append.2 ⟨hbefore, hbetween⟩ call hcall
    constructor
    · rintro path rfl
      cases hnone
    · rintro label rfl
      cases hnone
  have hno : desk.service = none → ∀ service, desk.tool ≠ .serving service := by
    intro hservice service htool
    rw [Desk.service, htool] at hservice
    cases hservice
  cases h with
  | nothing =>
    constructor
    · simp [hclose, hopen]
    · simp [hclose]
    · exact fun _ _ call hcall => hquiet call (by simpa using hcall)
    · simp [hclose]
  | @lent path =>
    constructor
    · simp [hclose, hopen]
    · simp [hclose]
    · intro _ _ call hcall
      have hcases : call ∈ before ++ between ∨ call = .openInTool path := by
        simp only [List.append_nil, List.mem_append, List.mem_singleton] at hcall ⊢
        tauto
      rcases hcases with hcall | rfl
      · exact hquiet call hcall
      · simp
    · simp [hclose]
  | refused hservice hrefusal =>
    constructor
    · simp [hclose, hrefusal]
    · simp [hclose]
    · exact fun service htool => absurd htool (hno hservice service)
    · simp [hclose]
  | @own path hservice hrefusal =>
    constructor
    · simp [hclose, hrefusal, hopen]
    · intro label hlabel
      have heq : label = "file:" ++ path := by simpa [hclose] using hlabel
      refine ⟨path, before, between, by simp [heq], heq, ?_⟩
      intro call hm
      rcases List.mem_append.1 hm with hm | hm
      · exact hbefore call hm
      · exact hbetween call hm
    · exact fun service htool => absurd htool (hno hservice service)
    · simp [htool, hservice, Archive.findOpen]

theorem isOfArchive_of_choice {given : Option String} {path : String} {asking : List Call}
    (h : Archive.Choice desk given path asking) : ∀ call ∈ asking, call.isOfArchive = false := by
  cases h with
  | given => simp
  | inModule => simp [Call.isOfArchive]

theorem isOfArchive_of_isOfPass {call : Call} (h : call.isOfPass) : call.isOfArchive = false := by
  cases call <;> first | rfl | cases h

/-- The calls made with what a search comes to, after the pass. -/
def settlingCalls (desk : Desk) : Except Archive.Fault Archive → List Call
  | .ok archive => closingCalls desk archive
  | .error _ => []

/-- A search opens at most one archive, which is closed after the pass only if it is the run's own. -/
theorem keeping_of_search {given : Option String} {t : Files.Tree} {found : Except Archive.Fault Archive}
    {sought : List Call} (h : Archive.Search desk given t found sought) : ∃ before opening,
      sought = before ++ opening ∧ (∀ call ∈ before, call.isOfArchive = false) ∧
      Keeping desk opening (settlingCalls desk found) := by
  cases h with
  | @found archive hopen =>
    have hclosing : closingCalls desk archive = [] := by
      unfold closingCalls
      cases hservice : desk.service with
      | none =>
        rw [hservice] at hopen
        cases hopen
      | some service => rfl
    refine ⟨[], [], rfl, by simp, ?_⟩
    rw [settlingCalls, hclosing]
    exact .nothing
  | notInModule => exact ⟨_, [], (List.append_nil _).symm, by simp [Call.isOfArchive], .nothing⟩
  | notFound _ choice _ => exact ⟨_, [], (List.append_nil _).symm, isOfArchive_of_choice choice, .nothing⟩
  | refused _ choice _ hrefusal =>
    refine ⟨_, _, rfl, isOfArchive_of_choice choice, ?_⟩
    unfold Archive.openingCall
    split_ifs with hservice
    · exact .lent
    · exact .refused (by simpa using hservice) hrefusal
  | opened _ choice _ hrefusal =>
    refine ⟨_, _, rfl, isOfArchive_of_choice choice, ?_⟩
    unfold Archive.openingCall settlingCalls closingCalls Archive.ofFile
    cases hservice : desk.service with
    | none => exact .own hservice hrefusal
    | some service => exact .lent

/-- Between what the search calls and what is called after the pass, there are calls of the pass only. -/
theorem Sweeping.calls {result : Except Failure Report} (h : Sweeping desk options methodsPath w result w') :
    ∃ found sought used, Archive.Search desk options.archive w.tree found sought ∧ (∀ call ∈ used, call.isOfPass) ∧
      w'.session.calls = w.session.calls ++ (sought ++ used ++ settlingCalls desk found) := by
  cases h with
  | noArchive search => exact ⟨_, _, [], search, by simp, by simp [Workspace.called, settlingCalls]⟩
  | noMethods search load =>
    refine ⟨_, _, [], search, by simp, ?_⟩
    simp [Workspace.called, opened, settlingCalls]
  | swept search load pass =>
    obtain ⟨used, hcalls, hused⟩ := Pass.calls_of_exec pass
    refine ⟨_, _, used, search, hused, ?_⟩
    simp [Workspace.called, opened, settlingCalls, hcalls]

theorem run_keeping {args : List String} {outcome : Except Failure Unit}
    (h : exec (run desk args) w = (outcome, w')) :
    ∃ own, w'.session.calls = w.session.calls ++ own ∧ Custody desk own := by
  rcases run_course h with ⟨made, hdeclines, -, hcalling⟩ |
    ⟨methodsPath, made, w₀, result, w₁, hchooses, -, hcalling, hsweeping, hidle, -⟩
  · refine ⟨made, hcalling.calls, ?_⟩
    have hmade : ∀ call ∈ made, call.isOfArchive = false := by
      cases hdeclines <;> simp [askingCall, Call.isOfArchive]
    have hnone : ∀ call ∈ ([] : List Call), call.isOfArchive = false := by simp
    have hcustody := (Keeping.nothing : Keeping desk [] []).custody hmade hnone
    simpa using hcustody
  · obtain ⟨found, sought, used, hsearch, hused, hcalls⟩ := hsweeping.calls
    obtain ⟨before, opening, rfl, hbefore, hkeeping⟩ := keeping_of_search hsearch
    have hmade : ∀ call ∈ made, call.isOfArchive = false := by
      cases hchooses <;> simp [askingCall, Call.isOfArchive]
    have hbefore' : ∀ call ∈ made ++ before, call.isOfArchive = false :=
      List.forall_mem_append.2 ⟨hmade, hbefore⟩
    refine ⟨_, ?_, hkeeping.custody hbefore' fun call hm => isOfArchive_of_isOfPass (hused call hm)⟩
    rw [hidle.calls, hcalls, hcalling.calls]
    simp

end Shapes

/-! ## Refusals to close -/

section Reluctance

theorem exec_ext {ε σ α : Type} {action action' : ExceptT ε (StateM σ) α} (h : ∀ s, exec action s = exec action' s) :
    action = action' :=
  funext h

variable (desk : Desk) (refusal : Option String)

/-- Whether the host closes an archive does not matter. -/
theorem closing_reluctant {α : Type} (archive : Archive) (job : Job Failure α) :
    closing { desk with closeRefusal := refusal } archive job = closing desk archive job := by
  apply exec_ext
  intro w
  cases hjob : exec job w with
  | mk result w' =>
    rw [exec_closing_called hjob, exec_closing_called hjob]
    rfl

theorem runPass_reluctant (options : Options) (methodsPath : String) :
    runPass { desk with closeRefusal := refusal } options methodsPath = runPass desk options methodsPath := by
  unfold runPass
  simp only [closing_reluctant]
  rfl

theorem run_reluctant (args : List String) : run { desk with closeRefusal := refusal } args = run desk args := by
  unfold run runTold
  simp only [runPass_reluctant]
  rfl

end Reluctance

/-- However a run ends, it has closed an archive if and only if it has opened one for itself, and no refusal to
close it changes anything. -/
theorem run_custody (desk : Desk) (args : List String) (w : Workspace) :
    ∃ own, (exec (run desk args) w).2.session.calls = w.session.calls ++ own ∧ Custody desk own ∧
      ∀ refusal, exec (run { desk with closeRefusal := refusal } args) w = exec (run desk args) w := by
  obtain ⟨own, hcalls, hcustody⟩ := run_keeping (show exec (run desk args) w = (_, _) from rfl)
  refine ⟨own, hcalls, hcustody, ?_⟩
  intro refusal
  rw [run_reluctant]

/-- There is no methods file, and the archive is closed all the same, although the host refuses. -/
example :
    let desk : Desk := ⟨"lib.so", true, .bare, [], none, none, some "busy", none, CommandLine.runtime⟩
    let w : Workspace := ⟨⟨[], [], [], [], []⟩, ⟨["w"], [(["w", "a.gdt"], .file (.bytes []) false)]⟩, []⟩
    (exec (run desk ["m.json", "archive=a.gdt"]) w).2.session.calls = [.openFile "a.gdt", .close "file:a.gdt"] := by
  decide +kernel

end Script

end JniSignatures
