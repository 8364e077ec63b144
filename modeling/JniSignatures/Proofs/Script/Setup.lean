import Mathlib
import JniSignatures.Main
import JniSignatures.Proofs.Files.Footprint
import JniSignatures.Proofs.Pass.Deeds
import JniSignatures.Proofs.Script.Telling
/-!
# Runs that stop before the pass

A run that declines to make a pass, finds no archive or cannot load the methods (`StopsAtSetup`) does not
touch the program: no function is listed or changed and no type is looked up. Nor does it touch the files,
except that a failure is told in the directory for the report if one is set (`OnlyTells`). Every other run
lists the functions, so these are all the ways to stop at the setup.
-/

namespace JniSignatures.Script

open Files (FileM Tree)

/-- How a run ends that does not get past its setup. -/
inductive StopsAtSetup (desk : Desk) (args : List String) (w : Workspace) : Except Failure Unit → Prop where
  /-- There is a call for help, or no methods file. -/
  | declined {outcome : Except Failure Unit} {made : List Call} (declines : Declines desk args outcome made) :
    StopsAtSetup desk args w outcome
  | noArchive {methodsPath : String} {made : List Call} {fault : Archive.Fault}
      (chooses : Chooses desk args methodsPath made)
      (acquire : (exec (Archive.acquire desk (Options.ofArgs args).1.archive) w).1 = .error fault) :
    StopsAtSetup desk args w (.error (.archive fault))
  | noMethods {methodsPath : String} {made : List Call} {archive : Archive} {fault : Method.LoadFault}
      (chooses : Chooses desk args methodsPath made)
      (acquire : (exec (Archive.acquire desk (Options.ofArgs args).1.archive) w).1 = .ok archive)
      (load : Method.load (desk.runtime.depth .methods) w.tree methodsPath = .error fault) :
    StopsAtSetup desk args w (.error (.methods fault))

/-- All that is new or changed are directories on the way of the directory's text, to which that leads, and the
error file in that directory, which tells the failure. -/
structure OnlyTells (trace : Text → List String) (directory : String) (failure : Failure) (t t' : Tree) : Prop where
  home : t'.home = t.home
  nodes : ∀ place, t'.node? place = t.node? place ∨
    (t.node? place = none ∧ t'.node? place = some .directory ∧
      ∃ text ∈ FileM.textsAbove directory ++ [directory], t'.locate text = .ok place) ∨
    t.node? place ≠ some .directory ∧
      (∃ text executable, (account trace failure).chars? = some text ∧
        t'.node? place = some (.file (.ofText text) executable)) ∧
      t'.locate (Files.joinText directory errorFileName) = .ok place ∧ place.getLast? = some errorFileName

/-- The program is not touched, and of the files at most the error file, with directories for it. -/
structure Untouched (trace : Text → List String) (options : Options) (outcome : Except Failure Unit)
    (own : List Call) (w w' : Workspace) : Prop where
  functions : w'.session.functions = w.session.functions
  calls : ∀ call ∈ own, call.isOfPass = false
  silent : outcome = .ok () ∨ outcome = .error .noChoice ∨ options.reportDirectory = none → w'.tree = w.tree
  told : ∀ failure directory, outcome = .error failure → options.reportDirectory = some directory →
    OnlyTells trace directory failure w.tree w'.tree

/-! ## The error file -/

section Telling

theorem writeError_adds (trace : Text → List String) (directory : String) (failure : Failure) (t : Tree) :
    t.Adds (FileM.textsAbove directory ++ [directory]) (Files.joinText directory errorFileName)
      (errorContent trace failure) (exec (writeError trace directory failure) t).2 := by
  have hmakes := FileM.makeDirectories_widens directory
  unfold writeError
  cases hd : exec (FileM.makeDirectories directory) t with
  | mk made t₁ =>
    have hwiden := hmakes.of_exec hd
    cases made with
    | error fault =>
      rw [exec_bind_error hd]
      exact hwiden.adds _ _
    | ok =>
      rw [exec_bind_ok hd, FileM.exec_change]
      cases hwrite : t₁.write (Files.joinText directory errorFileName) (errorContent trace failure) with
      | error fault => exact hwiden.adds _ _
      | ok t₂ => exact hwiden.write hwrite

theorem onlyTells_writeError (trace : Text → List String) (directory : String) {failure : Failure}
    (hmessage : failure.message.IsString) (t : Tree) :
    OnlyTells trace directory failure t (exec (writeError trace directory failure) t).2 := by
  obtain ⟨text, htext⟩ := Option.isSome_iff_exists.1
    (Text.isSome_chars?_iff.2 ((@isString_account_iff trace failure).2 hmessage))
  have hadds := writeError_adds trace directory failure t
  refine ⟨hadds.home, fun place => ?_⟩
  rcases hadds.nodes place with hsame | hnew | ⟨hfree, hfile, hlocate, hlast⟩
  · exact .inl hsame
  · exact .inr (.inl hnew)
  · rw [Files.last_step_joinText directory (by decide)] at hlast
    obtain ⟨executable, hfile⟩ := hfile
    rw [errorContent, htext, Option.getD_some] at hfile
    exact .inr (.inr ⟨hfree, ⟨text, executable, htext, hfile⟩, hlocate, hlast⟩)

theorem OnlyTells.refl (trace : Text → List String) (directory : String) (failure : Failure) (t : Tree) :
    OnlyTells trace directory failure t t :=
  ⟨rfl, fun _ => .inl rfl⟩

end Telling

/-! ## Stopping -/

section Stopping

variable {desk : Desk} {args : List String} {methodsPath : String} {w w' : Workspace} {made own : List Call}
  {outcome ended : Except Failure Unit}

theorem StopsAtSetup.of_declines (h : StopsAtSetup desk args w ended) (hd : Declines desk args outcome made) :
    ended = outcome := by
  cases h with
  | declined hd' => exact hd'.unique hd
  | noArchive hc => exact absurd hc hd.not_chooses
  | noMethods hc => exact absurd hc hd.not_chooses

/-- What is told of a run that stops at its setup can be written. -/
theorem StopsAtSetup.isString_message {failure : Failure} (h : StopsAtSetup desk args w (.error failure)) :
    failure.message.IsString := by
  cases h with
  | declined hd =>
    cases hd
    exact ⟨"cancelled", rfl⟩
  | @noArchive _ _ fault => exact ⟨fault.message, rfl⟩
  | @noMethods _ _ _ fault => exact ⟨fault.message, rfl⟩

/-- With a methods file a run stops at its setup for want of an archive or of methods. -/
theorem StopsAtSetup.of_chooses (h : StopsAtSetup desk args w ended) (hc : Chooses desk args methodsPath made) :
    (∃ fault, ended = .error (.archive fault) ∧
      (exec (Archive.acquire desk (Options.ofArgs args).1.archive) w).1 = .error fault) ∨
    ∃ archive fault, ended = .error (.methods fault) ∧
      (exec (Archive.acquire desk (Options.ofArgs args).1.archive) w).1 = .ok archive ∧
      Method.load (desk.runtime.depth .methods) w.tree methodsPath = .error fault := by
  cases h with
  | declined hd => exact absurd hc hd.not_chooses
  | noArchive _ acquire => exact .inl ⟨_, rfl, acquire⟩
  | noMethods hc' acquire load =>
    obtain rfl := hc'.unique hc
    exact .inr ⟨_, _, rfl, acquire, load⟩

theorem untouched_of_declines (h : Declines desk args outcome made) (htree : w'.tree = w.tree)
    (hcalling : Session.Calling made w.session w'.session) :
    Untouched desk.runtime.trace (Options.ofArgs args).1 outcome made w w' := by
  refine ⟨hcalling.functions, ?_, fun _ => htree, fun failure directory _ _ => ?_⟩
  · cases h <;> simp [askingCall, Call.isOfPass]
  · rw [htree]
    exact .refl _ directory failure w.tree

theorem untouched_of_told {trace : Text → List String} {options : Options} {failure : Failure} (hne : failure ≠ .noChoice)
    (hmessage : failure.message.IsString) (hfunctions : w'.session.functions = w.session.functions)
    (hcalls : ∀ call ∈ own, call.isOfPass = false)
    (htree : w'.tree = toldTree trace options failure w.tree) :
    Untouched trace options (.error failure) own w w' := by
  refine ⟨hfunctions, hcalls, ?_, ?_⟩
  · rintro (hend | hend | hd)
    · cases hend
    · exact absurd (Except.error.inj hend) hne
    · rw [htree, toldTree, hd]
  · rintro _ directory ⟨⟩ hd
    rw [htree, toldTree, hd]
    exact onlyTells_writeError trace directory hmessage w.tree

theorem isOfPass_of_search {given : Option String} {t : Tree} {found : Except Archive.Fault Archive}
    {sought : List Call} (h : Archive.Search desk given t found sought) : ∀ call ∈ sought, call.isOfPass = false := by
  have choice : ∀ {path asking}, Archive.Choice desk given path asking → ∀ call ∈ asking, call.isOfPass = false := by
    intro path asking hc
    cases hc <;> simp [Call.isOfPass]
  have opening : ∀ path, (Archive.openingCall desk path).isOfPass = false := by
    intro path
    unfold Archive.openingCall
    split_ifs <;> rfl
  cases h with
  | found => simp
  | notInModule => simp [Call.isOfPass]
  | notFound _ hc _ => exact choice hc
  | refused _ hc _ _ => exact List.forall_mem_append.2 ⟨choice hc, List.forall_mem_singleton.2 (opening _)⟩
  | opened _ hc _ _ => exact List.forall_mem_append.2 ⟨choice hc, List.forall_mem_singleton.2 (opening _)⟩

theorem isOfPass_of_chooses (h : Chooses desk args methodsPath made) : ∀ call ∈ made, call.isOfPass = false := by
  cases h <;> simp [askingCall, Call.isOfPass]

theorem isOfPass_of_closingCalls (desk : Desk) (archive : Archive) :
    ∀ call ∈ closingCalls desk archive, call.isOfPass = false := by
  unfold closingCalls
  split_ifs <;> simp [Call.isOfPass]

/-- A pass lists the functions, however it ends. -/
theorem listFunctions_mem {policy : Policy} {methods : List Method} {s t : Session} {r : Except ActionFault Report}
    (h : exec (Pass.run policy methods) s = (r, t)) : ∃ used, t.calls = s.calls ++ used ∧ .listFunctions ∈ used := by
  obtain ⟨used, hcalls, -⟩ := Pass.calls_of_exec h
  obtain ⟨loads, applies, hdeeds, -⟩ := Pass.run_deeds policy methods s
  refine ⟨used, hcalls, ?_⟩
  rw [h, Session.deeds, hcalls, List.filter_append, Session.deeds, List.append_cancel_left_eq] at hdeeds
  have hmem : Call.listFunctions ∈ used.filter (!·.isLookUp) := by
    rw [hdeeds]
    exact List.mem_cons_self
  exact List.mem_of_mem_filter hmem

/-- A run stops at its setup in one way only. -/
theorem StopsAtSetup.unique (h : StopsAtSetup desk args w outcome) (h' : StopsAtSetup desk args w ended) :
    outcome = ended := by
  cases h with
  | declined hd => exact (h'.of_declines hd).symm
  | noArchive hc acquire =>
    rcases h'.of_chooses hc with ⟨_, rfl, hother⟩ | ⟨_, _, -, hother, -⟩
    · rw [acquire] at hother
      cases hother
      rfl
    · rw [acquire] at hother
      cases hother
  | noMethods hc acquire load =>
    rcases h'.of_chooses hc with ⟨_, -, hother⟩ | ⟨_, _, rfl, -, hother⟩
    · rw [acquire] at hother
      cases hother
    · rw [load] at hother
      cases hother
      rfl

/-- The way from the archive to the report stops at the setup, or the functions are listed on it. -/
theorem stops_or_lists {before : Workspace} {result : Except Failure Report}
    (hchooses : Chooses desk args methodsPath made) (htree : w.tree = before.tree)
    (h : Sweeping desk (Options.ofArgs args).1 methodsPath w result w') :
    ∃ own, w'.session.calls = w.session.calls ++ own ∧
      ((∃ failure, failure ≠ .noChoice ∧ result = .error failure ∧ StopsAtSetup desk args before (.error failure) ∧
        w'.session.functions = w.session.functions ∧ ∀ call ∈ own, call.isOfPass = false) ∨
      .listFunctions ∈ own ∧ ∀ ended, ¬ StopsAtSetup desk args before ended) := by
  have acquired : ∀ {found sought}, Archive.Search desk (Options.ofArgs args).1.archive w.tree found sought →
      (exec (Archive.acquire desk (Options.ofArgs args).1.archive) before).1 = found := by
    intro found sought search
    rw [htree] at search
    rw [search.exec_acquire]
  cases h with
  | @noArchive fault sought search =>
    refine ⟨sought, rfl, .inl ⟨.archive fault, nofun, rfl, .noArchive hchooses (acquired search), rfl, ?_⟩⟩
    exact isOfPass_of_search search
  | @noMethods archive sought fault search load =>
    have hcalls := List.forall_mem_append.2 ⟨isOfPass_of_search search, isOfPass_of_closingCalls desk archive⟩
    rw [htree] at load
    refine ⟨sought ++ closingCalls desk archive, ?_, .inl ⟨.methods fault, nofun, rfl, ?_, rfl, hcalls⟩⟩
    · simp [Workspace.called, opened]
    · exact .noMethods hchooses (acquired search) load
  | @swept archive sought methods result session search load pass =>
    obtain ⟨used, hused, hlists⟩ := listFunctions_mem pass
    rw [htree] at load
    refine ⟨sought ++ used ++ closingCalls desk archive, ?_, .inr ⟨by simp [hlists], ?_⟩⟩
    · simp [Workspace.called, opened, hused]
    · intro ended hstops
      rcases hstops.of_chooses hchooses with ⟨_, -, hother⟩ | ⟨_, _, -, -, hother⟩
      · rw [acquired search] at hother
        cases hother
      · rw [load] at hother
        cases hother

/-- A run stops at its setup exactly if it does not list the functions, and then leaves all untouched but the
error file. -/
theorem run_setup (desk : Desk) (args : List String) (w : Workspace) :
    ∃ own, (exec (run desk args) w).2.session.calls = w.session.calls ++ own ∧
      (.listFunctions ∉ own ↔ ∃ outcome, StopsAtSetup desk args w outcome) ∧
      ∀ outcome, StopsAtSetup desk args w outcome → (exec (run desk args) w).1 = outcome ∧
        Untouched desk.runtime.trace (Options.ofArgs args).1 outcome own w (exec (run desk args) w).2 := by
  -- A run that leaves the program untouched has stopped, and the way in which it did is the only one.
  have stopped : ∀ {outcome own w'}, StopsAtSetup desk args w outcome →
      Untouched desk.runtime.trace (Options.ofArgs args).1 outcome own w w' →
      (.listFunctions ∉ own ↔ ∃ outcome, StopsAtSetup desk args w outcome) ∧
      ∀ ended, StopsAtSetup desk args w ended → outcome = ended ∧
        Untouched desk.runtime.trace (Options.ofArgs args).1 ended own w w' := by
    intro outcome own w' hstops huntouched
    refine ⟨iff_of_true ?_ ⟨outcome, hstops⟩, ?_⟩
    · intro hm
      exact absurd (huntouched.calls _ hm) (by decide)
    · intro ended hended
      obtain rfl := hstops.unique hended
      exact ⟨rfl, huntouched⟩
  cases hrun : exec (run desk args) w with
  | mk outcome w' =>
  rcases run_course hrun with ⟨made, hdeclines, htree, hcalling⟩ |
    ⟨methodsPath, made, w₀, result, w₁, hchooses, htree, hcalling, hsweeping, hidle, hending⟩
  · exact ⟨made, hcalling.calls, stopped (.declined hdeclines) (untouched_of_declines hdeclines htree hcalling)⟩
  obtain ⟨own, hcalls, hcases⟩ := stops_or_lists hchooses htree hsweeping
  refine ⟨made ++ own, by rw [hidle.calls, hcalls, hcalling.calls, List.append_nil, List.append_assoc], ?_⟩
  rcases hcases with ⟨failure, hne, rfl, hstops, hfunctions, hquiet⟩ | ⟨hlists, hnever⟩
  · cases hending with
    | told htold =>
      rw [hsweeping.tree, htree] at htold
      apply stopped hstops
      apply untouched_of_told hne hstops.isString_message
      · exact (hidle.functions.trans hfunctions).trans hcalling.functions
      · exact List.forall_mem_append.2 ⟨isOfPass_of_chooses hchooses, hquiet⟩
      · exact htold
  · refine ⟨iff_of_false ?_ ?_, fun ended h => absurd h (hnever ended)⟩
    · simp [hlists]
    · rintro ⟨ended, h⟩
      exact hnever ended h

end Stopping

/-- The archive is missing. All that comes of the run is the error file, in a directory made for it. -/
theorem run_setup_not_found :
    let desk : Desk := ⟨"lib.so", true, .absent, [], none, none, none, none, CommandLine.runtime⟩
    let w : Workspace := ⟨⟨[⟨"Java_A_b", none, [], "void", none⟩], [], [], [], []⟩, ⟨["w"], []⟩, []⟩
    let args := ["m.json", "archive=x.gdt", "report_dir=out"]
    let fault : Archive.Fault := .notFound "x.gdt"
    let told := "Traceback (most recent call last):\n  the calls are not told\n" ++
      "jni_errors.CatalogSetupError: JNI type archive not found: x.gdt\n"
    StopsAtSetup desk args w (.error (.archive fault)) ∧
      (exec (run desk args) w).1 = .error (.archive fault) ∧
      (exec (run desk args) w).2.session.functions = w.session.functions ∧
      OnlyTells desk.runtime.trace "out" (.archive fault) w.tree (exec (run desk args) w).2.tree ∧
      (exec (run desk args) w).2.tree.nodes = [(["w", "out"], .directory),
        (["w", "out", "apply_error.txt"],
          .file (.ofText told.toList) false)] := by
  intro desk w args fault told
  have hchooses : Chooses desk args "m.json" [] := .given (by decide +kernel) (by decide +kernel)
  have hstops : StopsAtSetup desk args w (.error (.archive fault)) := .noArchive hchooses (by decide +kernel)
  obtain ⟨own, -, -, hall⟩ := run_setup desk args w
  obtain ⟨hend, huntouched⟩ := hall _ hstops
  have htold := huntouched.told _ "out" rfl (by decide +kernel)
  exact ⟨hstops, hend, huntouched.functions, htold, by decide +kernel⟩

end JniSignatures.Script
