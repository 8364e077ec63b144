import Mathlib
import JniSignatures.Proofs.Pass.Matching
import JniSignatures.Proofs.Pass.OnLoad
import JniSignatures.Proofs.Symbol
/-!
# The course of a pass

`Pass.Course` lists the ways in which a pass can go, with all that leads to each of them and with the
functions that it leaves: it returns, it lacks a type for the functions that run on loading, the host
refuses to change one of these, or it stops at a method. `course_of_exec` says that there is no other
way. What is proved about passes is read off the four cases.
-/

namespace JniSignatures.Pass

open JniSignatures.Action (Ends)

/-- The verdict on a method when the pass starts with the functions `fs`. -/
def judge (types : TypeMap) (methods : List Method) (fs : List Function) : Method → Verdict :=
  verdict types (Inventory.ofFunctions fs).index (Symbol.shared (methods.map (·.qualifiedName)))

/-- The function with what all functions that run on loading have, by the types of a catalog. -/
def loaded (types : TypeMap) (f : Function) : Function :=
  f.atLoad ((types Signature.machineType).getD "") ((types Signature.versionType).getD "")

/-- The functions when those that run on loading are changed, and some of the methods carried out. -/
def reached (types : TypeMap) (methods : List Method) (fs : List Function) (done : List Method) :
    List Function :=
  fs.mapIdx fun i f =>
    if f.isOnLoad then loaded types f else f.resigned (newSignature? (judge types methods fs) done i)

/-- The functions when the host refuses to change the one at a position that runs on loading. -/
def brokenOff (types : TypeMap) (fs : List Function) (position : Nat) (setter : Setter) : List Function :=
  fs.mapIdx fun i f =>
    if f.isOnLoad ∧ i < position then loaded types f
    else if i = position then f.untilRefusal ((types Signature.machineType).getD "") setter
    else f

/-- What a pass that returns reports. -/
def reportOf (types : TypeMap) (methods : List Method) (fs : List Function) : Report :=
  { indexed := (Inventory.ofFunctions fs).indexed
    ignored := (Inventory.ofFunctions fs).ignored
    onLoadModified := List.replicate (Inventory.ofFunctions fs).onLoad.length Symbol.onLoad
    outcomes := methods.map fun m => (judge types methods fs m).outcome m }

/-- The catalog has the types of the functions that run on loading. -/
def HasLoadTypes (types : TypeMap) : Prop :=
  ∃ machine version, types Signature.machineType = some machine ∧ types Signature.versionType = some version

/-- The first type of the functions that run on loading that a catalog lacks. -/
def loadMissing? (types : TypeMap) : Option Text :=
  [Signature.machineType, Signature.versionType].find? fun typeName => (types typeName).isNone

/-- The functions that run on loading can all be changed. -/
def LoadsFreely (types : TypeMap) (fs : List Function) : Prop :=
  ∀ f ∈ fs, f.isOnLoad → HasLoadTypes types ∧ f.onLoadRefusal? = none

/-- How a pass can go: how it ends, and the functions that it leaves. -/
inductive Course (policy : Policy) (types : TypeMap) (methods : List Method) (fs : List Function) :
    Except ActionFault Report → List Function → Prop
  | returns (loads : LoadsFreely types fs)
      (free : ∀ m ∈ methods, (judge types methods fs m).fault? policy fs = none) :
      Course policy types methods fs (.ok (reportOf types methods fs)) (reached types methods fs methods)
  | lacks {f : Function} {typeName : Text} (mem : f ∈ fs) (runs : f.isOnLoad)
      (missing : loadMissing? types = some typeName) :
      Course policy types methods fs (.error (.typeMissing typeName (Catalog.path typeName))) fs
  | breaksOff {position : Nat} {f : Function} {r : Refusal} (has : HasLoadTypes types)
      (here : fs[position]? = some f) (runs : f.isOnLoad) (met : f.onLoadRefusal? = some r)
      (free : ∀ i g, i < position → fs[i]? = some g → g.isOnLoad → g.onLoadRefusal? = none) :
      Course policy types methods fs (.error (.refused r.message)) (brokenOff types fs position r.setter)
  | stops {before after : List Method} {m : Method} {e : ActionFault} (loads : LoadsFreely types fs)
      (split : methods = before ++ m :: after)
      (free : ∀ b ∈ before, (judge types methods fs b).fault? policy fs = none)
      (fault : (judge types methods fs m).fault? policy fs = some e) :
      Course policy types methods fs (.error e) (reached types methods fs before)

/-! ## The two halves of a pass -/

section Run

variable {policy : Policy} {types : TypeMap} {methods : List Method} {fs gs hs : List Function}
  {names : List String} {e : ActionFault}

theorem take_ends : Ends types fs Inventory.take (.ok (Inventory.ofFunctions fs)) fs :=
  Ends.bind (Ends.record _) (Ends.get_bind fun _ h => h ▸ Ends.pure _)

theorem run_ends {outcomes : List Outcome}
    (hl : Ends types fs (modifyOnLoad Catalog.resolve (Inventory.ofFunctions fs).onLoad) (.ok names) gs)
    (hm : Ends types gs (matchMethods Catalog.resolve policy (Inventory.ofFunctions fs).index
      (Symbol.shared (methods.map (·.qualifiedName))) methods) (.ok outcomes) hs) :
    Ends types fs (run policy methods)
      (.ok ⟨(Inventory.ofFunctions fs).indexed, (Inventory.ofFunctions fs).ignored, names, outcomes⟩) hs :=
  Ends.bind (Ends.print _) <| Ends.bind take_ends <| Ends.bind (Ends.printAll _) <| Ends.bind hl <|
    Ends.bind (Ends.print _) <| Ends.bind (Ends.print _) <| Ends.bind (Ends.printAll _) <|
    Ends.bind (Ends.print _) <| Ends.bind (Ends.print _) <| Ends.bind hm <| Ends.bind (Ends.print _) <|
    Ends.pure _

theorem run_ends_loading
    (hl : Ends types fs (modifyOnLoad Catalog.resolve (Inventory.ofFunctions fs).onLoad) (.error e) gs) :
    Ends types fs (run policy methods) (.error e) gs :=
  Ends.bind (Ends.print _) <| Ends.bind take_ends <| Ends.bind (Ends.printAll _) <| Ends.bind_error hl

theorem run_ends_matching
    (hl : Ends types fs (modifyOnLoad Catalog.resolve (Inventory.ofFunctions fs).onLoad) (.ok names) gs)
    (hm : Ends types gs (matchMethods Catalog.resolve policy (Inventory.ofFunctions fs).index
      (Symbol.shared (methods.map (·.qualifiedName))) methods) (.error e) hs) :
    Ends types fs (run policy methods) (.error e) hs :=
  Ends.bind (Ends.print _) <| Ends.bind take_ends <| Ends.bind (Ends.printAll _) <| Ends.bind hl <|
    Ends.bind (Ends.print _) <| Ends.bind (Ends.print _) <| Ends.bind (Ends.printAll _) <|
    Ends.bind (Ends.print _) <| Ends.bind (Ends.print _) <| Ends.bind_error hm

end Run

/-! ## What the functions are then -/

section Reached

variable {types : TypeMap} {methods : List Method} {fs : List Function}

theorem reached_getElem? {done : List Method} {i : Nat} {f : Function} (h : fs[i]? = some f) :
    (reached types methods fs done)[i]? = some (if f.isOnLoad then loaded types f
      else f.resigned (newSignature? (judge types methods fs) done i)) := by
  rw [reached, List.getElem?_mapIdx, h]
  rfl

theorem brokenOff_getElem? {k i : Nat} {setter : Setter} {f : Function} (h : fs[i]? = some f) :
    (brokenOff types fs k setter)[i]? = some (if f.isOnLoad ∧ i < k then loaded types f
      else if i = k then f.untilRefusal ((types Signature.machineType).getD "") setter else f) := by
  rw [brokenOff, List.getElem?_mapIdx, h]
  rfl

theorem inRange_index (fs : List Function) : InRange (Inventory.ofFunctions fs).index fs := by
  intro symbol i h
  obtain ⟨f, hf, -⟩ := Inventory.lookup_index_iff.1 h
  exact (List.getElem?_eq_some_iff.1 hf.here).1

/-- The grounds for a verdict. -/
inductive Grounds (types : TypeMap) (methods : List Method) (fs : List Function) (m : Method) :
    Verdict → Prop
  | shared (several : Symbol.ofName m.qualifiedName ∈ Symbol.shared (methods.map (·.qualifiedName))) :
      Grounds types methods fs m .shared
  | unmatched (alone : Symbol.ofName m.qualifiedName ∉ Symbol.shared (methods.map (·.qualifiedName)))
      (unnamed : ∀ i f, Inventory.Stands fs i f → f.name ≠ Symbol.ofName m.qualifiedName) :
      Grounds types methods fs m .unmatched
  | lacking {i : Nat} {f : Function} {typeName : Text}
      (alone : Symbol.ofName m.qualifiedName ∉ Symbol.shared (methods.map (·.qualifiedName)))
      (stands : Inventory.Stands fs i f) (named : f.name = Symbol.ofName m.qualifiedName)
      (missing : Signature.missing? types m = some typeName) :
      Grounds types methods fs m (.lacking typeName)
  | assigned {i : Nat} {f : Function}
      (alone : Symbol.ofName m.qualifiedName ∉ Symbol.shared (methods.map (·.qualifiedName)))
      (stands : Inventory.Stands fs i f) (named : f.name = Symbol.ofName m.qualifiedName)
      (missing : Signature.missing? types m = none) :
      Grounds types methods fs m (.assigned i (Signature.described types m))

theorem grounds (types : TypeMap) (methods : List Method) (fs : List Function) (m : Method) :
    Grounds types methods fs m (judge types methods fs m) := by
  unfold judge verdict
  split
  · rename_i hs
    exact .shared (by simpa using hs)
  · rename_i hs
    have alone : Symbol.ofName m.qualifiedName ∉ Symbol.shared (methods.map (·.qualifiedName)) := by
      simpa using hs
    split
    · rename_i hl
      exact .unmatched alone (Inventory.lookup_index_eq_none_iff.1 hl)
    · rename_i i hl
      obtain ⟨f, stands, named⟩ := Inventory.lookup_index_iff.1 hl
      split
      · rename_i missing
        exact .lacking alone stands named missing
      · rename_i missing
        exact .assigned alone stands named missing

/-- No method gives a function that runs on loading a signature. -/
theorem newSignature?_onLoad {i : Nat} {f : Function} (h : fs[i]? = some f) (ho : f.isOnLoad)
    (done : List Method) : newSignature? (judge types methods fs) done i = none := by
  refine newSignature?_eq_none_iff.2 fun m _ signature hj => ?_
  have hg := grounds types methods fs m
  rw [hj] at hg
  cases hg with
  | assigned _ stands _ _ =>
    have hn := Option.some.inj (h.symm.trans stands.here) ▸ stands.native
    rw [Function.isNative_of_isOnLoad ho] at hn
    cases hn

theorem loadedAt_getElem? (machine version : String) (positions : List Nat) (fs : List Function) (i : Nat) :
    (loadedAt machine version positions fs)[i]? =
      fs[i]?.map fun f => if i ∈ positions then f.atLoad machine version else f :=
  List.getElem?_mapIdx

theorem performAll_loadedAt (types : TypeMap) (methods : List Method) (fs : List Function)
    (done : List Method) :
    performAll (judge types methods fs) done (loadedAt ((types Signature.machineType).getD "")
      ((types Signature.versionType).getD "") (Inventory.ofFunctions fs).onLoad fs) =
      reached types methods fs done := by
  refine List.ext_getElem? fun i => ?_
  rw [performAll_eq, List.getElem?_mapIdx, loadedAt_getElem?, reached, List.getElem?_mapIdx]
  cases hf : fs[i]? with
  | none => rfl
  | some f =>
    have hmem : i ∈ (Inventory.ofFunctions fs).onLoad ↔ f.isOnLoad := by
      simp [Inventory.mem_onLoad_iff, hf]
    by_cases ho : f.isOnLoad
    · simp [hmem, ho, newSignature?_onLoad hf ho, Function.resigned, loaded]
    · simp [hmem, ho]

/-- Changing the functions that run on loading does not change what the host refuses. -/
theorem fault?_loadedAt (policy : Policy) (v : Verdict) (machine version : String) (positions : List Nat) :
    v.fault? policy (loadedAt machine version positions fs) = v.fault? policy fs := by
  refine Verdict.fault?_congr (List.ext_getElem? fun i => ?_) policy v
  rw [List.getElem?_map, List.getElem?_map, loadedAt_getElem?, Option.map_map]
  refine congrArg (Option.map · fs[i]?) (funext fun f => ?_)
  by_cases hi : i ∈ positions <;> simp [hi, Function.atLoad]

/-- The positions before one of those on loading are the smaller ones, because they are sorted. -/
theorem mem_before_iff {before after : List Nat} {k i : Nat} {g : Function}
    (hs : (Inventory.ofFunctions fs).onLoad = before ++ k :: after) (hi : fs[i]? = some g) :
    i ∈ before ↔ g.isOnLoad ∧ i < k := by
  obtain ⟨-, hafter, hcross⟩ := List.pairwise_append.1 (hs ▸ Inventory.onLoad_sorted fs)
  have hon : i ∈ before ++ k :: after ↔ g.isOnLoad := by
    rw [← hs]
    simp [Inventory.mem_onLoad_iff, hi]
  constructor
  · exact fun hm => ⟨hon.1 (List.mem_append_left _ hm), hcross i hm k List.mem_cons_self⟩
  · rintro ⟨ho, hlt⟩
    rcases List.mem_append.1 (hon.2 ho) with hm | hm
    · exact hm
    · rcases List.mem_cons.1 hm with rfl | hm
      · exact absurd hlt (Nat.lt_irrefl i)
      · exact absurd hlt (Nat.lt_asymm ((List.pairwise_cons.1 hafter).1 i hm))

theorem set_loadedAt {before after : List Nat} {k : Nat} {f : Function} {setter : Setter}
    (hk : fs[k]? = some f) (hs : (Inventory.ofFunctions fs).onLoad = before ++ k :: after) :
    (loadedAt ((types Signature.machineType).getD "") ((types Signature.versionType).getD "") before fs).set k
      (f.untilRefusal ((types Signature.machineType).getD "") setter) = brokenOff types fs k setter := by
  refine List.ext_getElem? fun i => ?_
  rw [List.getElem?_set, loadedAt_getElem?, brokenOff, List.getElem?_mapIdx]
  by_cases hik : k = i
  · subst hik
    have hlt : k < (loadedAt ((types Signature.machineType).getD "")
        ((types Signature.versionType).getD "") before fs).length := by
      simpa [loadedAt] using (List.getElem?_eq_some_iff.1 hk).1
    rw [if_pos rfl, if_pos hlt, hk]
    simp
  · rw [if_neg hik]
    cases hf : fs[i]? with
    | none => rfl
    | some g => simp [mem_before_iff hs hf, Ne.symm hik, loaded]

end Reached

/-! ## There is no other way -/

/-- The first member of a list of which something fails, if it fails of any. -/
theorem exists_first_not {α : Type} (p : α → Prop) (l : List α) (h : ¬ ∀ x ∈ l, p x) :
    ∃ before x after, l = before ++ x :: after ∧ (∀ b ∈ before, p b) ∧ ¬ p x := by
  classical
  have hs : (l.find? fun x => ¬ p x).isSome := by simpa using h
  obtain ⟨x, hx⟩ := Option.isSome_iff_exists.1 hs
  obtain ⟨hp, before, after, rfl, hb⟩ := List.find?_eq_some_iff_append.1 hx
  exact ⟨before, x, after, rfl, by simpa using hb, by simpa using hp⟩

theorem loadMissing?_eq_none_iff {types : TypeMap} : loadMissing? types = none ↔ HasLoadTypes types := by
  simp [loadMissing?, HasLoadTypes, List.find?_eq_none, ← ne_eq, Option.ne_none_iff_exists']

/-- The functions that run on loading are all changed, if that is free. -/
theorem load_ends {types : TypeMap} {fs : List Function} (h : LoadsFreely types fs) :
    Ends types fs (modifyOnLoad Catalog.resolve (Inventory.ofFunctions fs).onLoad)
      (.ok (List.replicate (Inventory.ofFunctions fs).onLoad.length Symbol.onLoad))
      (loadedAt ((types Signature.machineType).getD "") ((types Signature.versionType).getD "")
        (Inventory.ofFunctions fs).onLoad fs) := by
  have hall : ∀ i ∈ (Inventory.ofFunctions fs).onLoad, ∃ f, fs[i]? = some f ∧ f.isOnLoad ∧
      HasLoadTypes types ∧ f.onLoadRefusal? = none := by
    intro i hi
    obtain ⟨f, hf, ho⟩ := Inventory.mem_onLoad_iff.1 hi
    exact ⟨f, hf, ho, h f (List.mem_of_getElem? hf) ho⟩
  have hsort := Inventory.onLoad_sorted fs
  generalize (Inventory.ofFunctions fs).onLoad = positions at hall hsort
  cases positions with
  | nil =>
    rw [loadedAt_nil]
    exact Ends.pure _
  | cons i rest =>
    obtain ⟨f, -, -, ⟨machine, version, hm, hv⟩, -⟩ := hall i List.mem_cons_self
    rw [hm, hv]
    refine modifyOnLoad_ends hm hv (hsort.imp Nat.ne_of_lt) fun j hj => ?_
    obtain ⟨g, hg, ho, -, hr⟩ := hall j hj
    exact ⟨g, hg, ho, hr⟩

/-- If nothing stops the loading, the methods are matched, and the first one with a fault ends the pass. -/
theorem exists_course_free {policy : Policy} {types : TypeMap} {methods : List Method} {fs : List Function}
    (hl : LoadsFreely types fs) :
    ∃ r gs, Ends types fs (run policy methods) r gs ∧ Course policy types methods fs r gs := by
  have hload := load_ends hl
  have hrange : InRange (Inventory.ofFunctions fs).index
      (loadedAt ((types Signature.machineType).getD "") ((types Signature.versionType).getD "")
        (Inventory.ofFunctions fs).onLoad fs) := by
    intro symbol i hi
    simpa [loadedAt] using inRange_index fs symbol i hi
  by_cases hm : ∀ m ∈ methods, (judge types methods fs m).fault? policy fs = none
  · refine ⟨_, _, run_ends hload ?_, .returns hl hm⟩
    rw [← performAll_loadedAt]
    exact matchMethods_ends hrange fun m hmem => (fault?_loadedAt _ _ _ _ _).trans (hm m hmem)
  · obtain ⟨before, m, after, hsplit, hb, hf⟩ := exists_first_not _ _ hm
    obtain ⟨e, he⟩ := Option.ne_none_iff_exists'.1 hf
    subst hsplit
    refine ⟨.error e, _, run_ends_matching hload ?_, .stops hl rfl hb he⟩
    rw [← performAll_loadedAt]
    exact matchMethods_stops hrange (fun b hmem => (fault?_loadedAt _ _ _ _ _).trans (hb b hmem))
      ((fault?_loadedAt _ _ _ _ _).trans he)

/-- A missing type ends the pass at the first of the functions that run on loading. -/
theorem exists_course_lacking {policy : Policy} {types : TypeMap} {methods : List Method} {fs : List Function}
    {i : Nat} {rest : List Nat} {typeName : Text} (hs : (Inventory.ofFunctions fs).onLoad = i :: rest)
    (hmiss : loadMissing? types = some typeName) :
    ∃ r gs, Ends types fs (run policy methods) r gs ∧ Course policy types methods fs r gs := by
  obtain ⟨f, hf, ho⟩ := Inventory.mem_onLoad_iff.1 (hs ▸ List.mem_cons_self)
  refine ⟨_, fs, run_ends_loading ?_, .lacks (List.mem_of_getElem? hf) ho hmiss⟩
  rw [hs]
  exact modifyOnLoad_missing hf hmiss

/-- The first function that the host refuses to change on loading ends the pass. -/
theorem exists_course_refused {policy : Policy} {types : TypeMap} {methods : List Method} {fs : List Function}
    {before after : List Nat} {k : Nat} {f : Function} {r : Refusal} (htypes : HasLoadTypes types)
    (hs : (Inventory.ofFunctions fs).onLoad = before ++ k :: after)
    (hb : ∀ i ∈ before, ∀ g, fs[i]? = some g → g.onLoadRefusal? = none) (hf : fs[k]? = some f) (ho : f.isOnLoad)
    (hr : f.onLoadRefusal? = some r) :
    ∃ r gs, Ends types fs (run policy methods) r gs ∧ Course policy types methods fs r gs := by
  have hsort := hs ▸ Inventory.onLoad_sorted fs
  obtain ⟨machine, version, hm, hv⟩ := id htypes
  refine ⟨_, _, run_ends_loading ?_, .breaksOff htypes hf ho hr fun i g hik hg hgo => ?_⟩
  · rw [← set_loadedAt hf hs, hs, hm, hv]
    refine modifyOnLoad_refused hm hv (hsort.imp Nat.ne_of_lt) (fun j hj => ?_) hf hr
    obtain ⟨g, hg, hgo⟩ := Inventory.mem_onLoad_iff.1 (hs ▸ List.mem_append_left _ hj)
    exact ⟨g, hg, hgo, hb j hj g hg⟩
  · exact hb i ((mem_before_iff hs hg).2 ⟨hgo, hik⟩) g hg

/-- A pass goes in one of the four ways, whatever the session is besides its catalog and functions. -/
theorem exists_course (policy : Policy) (types : TypeMap) (methods : List Method) (fs : List Function) :
    ∃ r gs, Ends types fs (run policy methods) r gs ∧ Course policy types methods fs r gs := by
  by_cases hl : LoadsFreely types fs
  · exact exists_course_free hl
  -- The loading is followed along the positions, because the first one that fails is wanted.
  · have hpos : ¬ ∀ i ∈ (Inventory.ofFunctions fs).onLoad, ∀ f, fs[i]? = some f →
        HasLoadTypes types ∧ f.onLoadRefusal? = none := by
      intro hall
      refine hl fun f hf ho => ?_
      obtain ⟨i, hi⟩ := List.mem_iff_getElem?.1 hf
      exact hall i (Inventory.mem_onLoad_iff.2 ⟨f, hi, ho⟩) f hi
    obtain ⟨before, k, after, hsplit, hb, hk⟩ := exists_first_not _ _ hpos
    cases hmiss : loadMissing? types with
    | some typeName =>
      -- The type is missed at the first of the functions, which need not be the one at `k`.
      obtain ⟨i, rest, hi⟩ : ∃ i rest, before ++ k :: after = i :: rest :=
        List.exists_cons_of_ne_nil (by simp)
      exact exists_course_lacking (hsplit.trans hi) hmiss
    | none =>
      have htypes := loadMissing?_eq_none_iff.1 hmiss
      obtain ⟨f, hf, ho⟩ := Inventory.mem_onLoad_iff.1 (hsplit ▸ List.mem_append_right before List.mem_cons_self)
      obtain ⟨r, hr⟩ : ∃ r, f.onLoadRefusal? = some r := by
        refine Option.ne_none_iff_exists'.1 fun hnone => hk fun g hg => ⟨htypes, ?_⟩
        rwa [← Option.some.inj (hf.symm.trans hg)]
      exact exists_course_refused htypes hsplit (fun i hi g hg => (hb i hi g hg).2) hf ho hr

theorem course_of_exec {policy : Policy} {methods : List Method} {s t : Session}
    {r : Except ActionFault Report} (h : exec (run policy methods) s = (r, t)) :
    Course policy s.typeOf methods s.functions r t.functions := by
  obtain ⟨r', gs, he, hcourse⟩ := exists_course policy s.typeOf methods s.functions
  obtain ⟨rfl, -, rfl⟩ := he.exec_eq h
  exact hcourse

/-- The catalog says after a pass what it said before. -/
theorem typeOf_of_exec {policy : Policy} {methods : List Method} {s t : Session}
    {r : Except ActionFault Report} (h : exec (run policy methods) s = (r, t)) : t.typeOf = s.typeOf := by
  obtain ⟨r', gs, he, -⟩ := exists_course policy s.typeOf methods s.functions
  exact (he.exec_eq h).2.1

end JniSignatures.Pass
