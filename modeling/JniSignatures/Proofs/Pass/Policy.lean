import Mathlib
import JniSignatures.Proofs.Pass.Unhindered
/-!
# The two policies

A pass under `abort` does what one under `skip` does, call by call, until a method lacks a type: there
the one stops and the other goes on. So if no method lacks a type, the two passes are the same run
(`run_abort_of_skip`). Otherwise the stricter pass stops at the first method that the other one reports
for it, with the fault that is reported there (`abort_against_skip`).
-/

namespace JniSignatures.Pass

/-- A method is matched to the function at a position: it is the only one with the symbol that leads
there. -/
structure Matches (methods : List Method) (fs : List Function) (m : Method) (i : Nat) (f : Function) : Prop where
  stands : Inventory.Stands fs i f
  alone : Symbol.owners methods f.name = [m]

/-- The first outcome of a report that tells of a missing type. -/
structure FirstTypeError (r : Report) (i : Nat) (o : Outcome) : Prop where
  here : r.outcomes[i]? = some o
  status : o.status = .typeError
  first : ∀ j p, j < i → r.outcomes[j]? = some p → p.status ≠ .typeError

/-- The functions `gs` have come as far as `hs` in what the first methods and the loading concern, and are
otherwise those that the pass began with. -/
structure ShortOf (methods : List Method) (fs : List Function) (done : List Method) (hs gs : List Function) : Prop where
  length : gs.length = fs.length
  same : ∀ (i : Nat) (f : Function), fs[i]? = some f → (f.isOnLoad ∨ ∃ m ∈ done, Matches methods fs m i f) →
    gs[i]? = hs[i]?
  kept : ∀ (i : Nat) (f : Function), fs[i]? = some f → ¬ f.isOnLoad → (∀ m ∈ done, ¬ Matches methods fs m i f) →
    gs[i]? = some f

/-! ## One run for both -/

section Together

variable {resolve : Resolver} {index : List (String × Nat)} {shared : List String} {s t : Session}

/-- Only a missing type, which is then reported, makes a difference. -/
theorem applyMatch_policies (m : Method) (symbol : String) (i : Nat) (s : Session) :
    exec (applyMatch resolve .abort m symbol i) s = exec (applyMatch resolve .skip m symbol i) s ∨
      ∃ o t, exec (applyMatch resolve .skip m symbol i) s = (.ok o, t) ∧ o.status = .typeError := by
  unfold applyMatch
  generalize hb : (do
    let count ← Signature.assign resolve i m
    return (⟨some m.qualifiedName, some symbol, .applied, some count, none⟩ : Outcome)) = body
  cases ha : exec body s with
  | mk result t =>
    cases result with
    | ok o =>
      left
      rw [exec_tryCatch_ok ha, exec_tryCatch_ok ha]
    | error e =>
      rw [exec_tryCatch_error ha, exec_tryCatch_error ha]
      cases e with
      | typeMissing typeName path => exact .inr ⟨_, _, rfl, rfl⟩
      | refused message => exact .inl rfl

theorem matchMethod_policies (isShared : Bool) (m : Method) (s : Session) :
    exec (matchMethod resolve .abort index isShared m) s = exec (matchMethod resolve .skip index isShared m) s ∨
      ∃ o t, exec (matchMethod resolve .skip index isShared m) s = (.ok o, t) ∧ o.status = .typeError := by
  unfold matchMethod
  cases Symbol.ofMethod isShared m.qualifiedName with
  | error fault => exact .inl rfl
  | ok symbol =>
    have hprint : ∀ line, exec (Action.print line) s = (.ok (), { s with printed := s.printed ++ [line] }) :=
      fun _ => rfl
    dsimp only
    rw [exec_bind_ok (hprint _), exec_bind_ok (hprint _)]
    cases index.lookup symbol with
    | none => exact .inl rfl
    | some i => exact applyMatch_policies m symbol i _

theorem matchMethods_policies {methods : List Method} {outcomes : List Outcome}
    (h : exec (matchMethods resolve .skip index shared methods) s = (.ok outcomes, t))
    (hnone : ∀ o ∈ outcomes, o.status ≠ .typeError) :
    exec (matchMethods resolve .abort index shared methods) s = (.ok outcomes, t) := by
  induction methods generalizing s outcomes with
  | nil => exact h
  | cons m rest ih =>
    obtain ⟨o, u, ho, h⟩ := exec_bind_eq_ok h
    obtain ⟨others, v, hothers, h⟩ := exec_bind_eq_ok h
    cases h
    have hm : exec (matchMethod resolve .abort index (shared.contains (Symbol.ofName m.qualifiedName)) m) s =
        (.ok o, u) := by
      rcases matchMethod_policies (shared.contains (Symbol.ofName m.qualifiedName)) m s with heq | ⟨p, v, hp, hs⟩
      · rw [heq, ho]
      · rw [ho] at hp
        cases hp
        exact absurd hs (hnone o List.mem_cons_self)
    have hrest := ih hothers fun p hp => hnone p (List.mem_cons_of_mem _ hp)
    rw [matchMethods, exec_bind_ok hm, exec_bind_ok hrest]
    rfl

/-- A pass under `skip` that reports no missing type goes under `abort` in the same way, call by call. -/
theorem run_abort_of_skip {methods : List Method} {r : Report} (h : exec (run .skip methods) s = (.ok r, t))
    (hnone : ∀ o ∈ r.outcomes, o.status ≠ .typeError) : exec (run .abort methods) s = (.ok r, t) := by
  refine exec_bind_congr_ok h fun _ s h => exec_bind_congr_ok h fun inventory s h => ?_
  refine exec_bind_congr_ok h fun _ s h => exec_bind_congr_ok h fun names s h => ?_
  refine exec_bind_congr_ok h fun _ s h => exec_bind_congr_ok h fun _ s h => ?_
  refine exec_bind_congr_ok h fun _ s h => exec_bind_congr_ok h fun _ s h => ?_
  refine exec_bind_congr_ok h fun _ s h => ?_
  obtain ⟨outcomes, u, hm, h⟩ := exec_bind_eq_ok h
  obtain ⟨-, v, hprint, hpure⟩ := exec_bind_eq_ok h
  cases hpure
  have hall : ∀ o ∈ outcomes, o.status ≠ .typeError := hnone
  dsimp only
  rw [exec_bind_ok (matchMethods_policies hm hall)]
  exact h

end Together

/-! ## The two passes apart -/

section Apart

variable {types : TypeMap} {methods before after : List Method} {fs gs : List Function} {m : Method} {i : Nat}
  {f : Function} {result : Except ActionFault Report}

theorem Applies.matches {signature : Signature} (h : Applies types methods fs i f m signature) :
    Matches methods fs m i f :=
  ⟨h.stands, h.alone⟩

/-- A method that is matched to a function lacks a type or gives the function a signature. -/
theorem Matches.judge (h : Matches methods fs m i f) (hm : m ∈ methods) (types : TypeMap) :
    (∃ typeName, judge types methods fs m = .lacking typeName) ∨
      ∃ signature, Applies types methods fs i f m signature := by
  cases hmiss : Signature.missing? types m with
  | none => exact .inr ⟨_, h.stands, h.alone, Signature.fits_described hmiss⟩
  | some typeName =>
    left
    have hn : f.name = Symbol.ofName m.qualifiedName := by
      have hmem : m ∈ Symbol.owners methods f.name := h.alone ▸ List.mem_singleton_self m
      simpa [eq_comm] using (List.mem_filter.1 hmem).2
    have hs := (Symbol.owners_eq_singleton_iff hm).1 (hn ▸ h.alone)
    have hl := Inventory.lookup_index_iff.2 ⟨f, h.stands, hn⟩
    refine ⟨typeName, ?_⟩
    rw [Pass.judge, verdict, if_neg (by simpa using hs), hl]
    simp [hmiss]

/-- What is reached with the methods before the first one that lacks a type. -/
theorem shortOf_reached (hsub : before ⊆ methods)
    (hfree : ∀ b ∈ before, ∀ typeName, judge types methods fs b ≠ .lacking typeName) :
    ShortOf methods fs before (reached types methods fs methods) (reached types methods fs before) := by
  refine ⟨by simp [reached], fun i f hf hdone => ?_, fun i f hf ho hnot => ?_⟩
  · rw [reached_getElem? hf, reached_getElem? hf]
    rcases hdone with ho | ⟨m, hm, hmatch⟩
    · rw [if_pos ho, if_pos ho]
    · rcases hmatch.judge (hsub hm) types with ⟨typeName, hlack⟩ | ⟨signature, happ⟩
      · exact absurd hlack (hfree m hm typeName)
      · rw [(newSignature?_eq_some_iff hsub).2 ⟨m, hm, f, happ⟩,
          (newSignature?_eq_some_iff (List.Subset.refl methods)).2 ⟨m, hsub hm, f, happ⟩]
  · have hnone : newSignature? (judge types methods fs) before i = none := by
      refine Option.eq_none_iff_forall_ne_some.2 fun signature hs => ?_
      obtain ⟨m, hm, g, hg⟩ := (newSignature?_eq_some_iff hsub).1 hs
      obtain rfl : f = g := Option.some.inj (hf.symm.trans hg.stands.here)
      exact hnot m hm hg.matches
    rw [reached_getElem? hf, if_neg ho, hnone]
    rfl

/-- Where the stricter pass stops is where the other one reports the first missing type. -/
theorem length_before_eq {o : Outcome} (split : methods = before ++ m :: after)
    (hfree : ∀ b ∈ before, ∀ typeName, judge types methods fs b ≠ .lacking typeName)
    (hlack : ∃ typeName, judge types methods fs m = .lacking typeName)
    (ho : FirstTypeError (reportOf types methods fs) i o) : before.length = i := by
  have hout : ∀ j, (reportOf types methods fs).outcomes[j]? =
      methods[j]?.map fun n => (judge types methods fs n).outcome n := fun j => List.getElem?_map
  have hm : methods[before.length]? = some m := by rw [split]; simp
  rcases Nat.lt_trichotomy before.length i with hlt | heq | hgt
  · refine absurd (outcome_typeError_iff.2 hlack) (ho.first _ ((judge types methods fs m).outcome m) hlt ?_)
    rw [hout, hm]
    rfl
  · exact heq
  · have hb : methods[i]? = some before[i] := by
      rw [split, List.getElem?_append_left hgt, List.getElem?_eq_getElem hgt]
    have hhere := ho.here
    rw [hout, hb] at hhere
    obtain ⟨typeName, hj⟩ := outcome_typeError_iff.1 (Option.some.inj hhere ▸ ho.status)
    exact absurd hj (hfree before[i] (List.getElem_mem hgt) typeName)

/-- A pass under `abort` that returns has met no method that lacks a type. -/
theorem Course.typeError_free {r : Report} (h : Course .abort types methods fs (.ok r) gs) (free : Unhindered fs) :
    ∀ o ∈ (reportOf types methods fs).outcomes, o.status ≠ .typeError := by
  cases h with
  | returns _ hfree =>
    intro o ho hstatus
    obtain ⟨m, hm, rfl⟩ := List.mem_map.1 ho
    obtain ⟨typeName, hj⟩ := outcome_typeError_iff.1 hstatus
    exact (fault?_abort_eq_none_iff free).1 (hfree m hm) typeName hj

/-- A pass under `abort` stops where one under `skip` reports the first missing type, if it reports one. -/
theorem Course.of_firstTypeError {o : Outcome} (h : Course .abort types methods fs result gs) (free : Unhindered fs)
    (loads : LoadsFreely types fs) (ho : FirstTypeError (reportOf types methods fs) i o) :
    ∃ typeName, result = .error (.typeMissing typeName (Catalog.path typeName)) ∧
      o.detail = some (ActionFault.typeMissing typeName (Catalog.path typeName)).message ∧
      ShortOf methods fs (methods.take i) (reached types methods fs methods) gs := by
  have hhere : methods[i]?.map (fun n => (judge types methods fs n).outcome n) = some o :=
    List.getElem?_map.symm.trans ho.here
  obtain ⟨n, hn, hno⟩ := Option.map_eq_some_iff.1 hhere
  obtain ⟨missed, hmissed⟩ := outcome_typeError_iff.1 (hno ▸ ho.status)
  cases h with
  | returns _ hfree =>
    exact absurd hmissed ((fault?_abort_eq_none_iff free).1 (hfree n (List.mem_of_getElem? hn)) missed)
  | lacks mem runs missing =>
    rw [loadMissing?_eq_none_iff.2 (loads _ mem runs).1] at missing
    cases missing
  | breaksOff has here runs met =>
    rw [(loads _ (List.mem_of_getElem? here) runs).2] at met
    cases met
  | @stops before after m e _ split hbefore fault =>
    obtain ⟨typeName, hj, rfl⟩ := (fault?_abort_eq_some_iff free).1 fault
    have hfree : ∀ b ∈ before, ∀ typeName, judge types methods fs b ≠ .lacking typeName :=
      fun b hb => (fault?_abort_eq_none_iff free).1 (hbefore b hb)
    obtain rfl := length_before_eq split hfree ⟨typeName, hj⟩ ho
    have hm : n = m := by
      rw [split] at hn
      simpa using hn.symm
    refine ⟨typeName, rfl, ?_, ?_⟩
    · rw [← hno, hm, hj]
      rfl
    · rw [show methods.take before.length = before by rw [split]; simp]
      exact shortOf_reached (fun b hb => split ▸ List.mem_append_left _ hb) hfree

end Apart

/-- Without refusals of the host the two policies differ only from the first missing type of a method on.
A type that the functions run on loading lack ends both passes alike. Otherwise the pass under `skip`
returns; the one under `abort` returns if that one reports no missing type, and is then the same run; and
if it reports one, the pass under `abort` ends with the fault that is reported first, when the methods
before have been carried out. -/
theorem abort_against_skip {s : Session} (free : Unhindered s.functions) (methods : List Method) :
    (LacksLoadTypes s.typeOf s.functions → ∃ typeName, ∀ policy, ∃ t,
      exec (run policy methods) s = (.error (.typeMissing typeName (Catalog.path typeName)), t) ∧
        t.functions = s.functions) ∧
    (¬ LacksLoadTypes s.typeOf s.functions → ∃ r t, exec (run .skip methods) s = (.ok r, t) ∧
      ((∃ r' t', exec (run .abort methods) s = (.ok r', t')) ↔ ∀ o ∈ r.outcomes, o.status ≠ .typeError) ∧
      (∀ r' t', exec (run .abort methods) s = (.ok r', t') → r' = r ∧ t' = t) ∧
      ∀ i o, FirstTypeError r i o → ∃ typeName path t', o.detail = some (ActionFault.typeMissing typeName path).message ∧
        exec (run .abort methods) s = (.error (.typeMissing typeName path), t') ∧
          ShortOf methods s.functions (methods.take i) t.functions t'.functions) := by
  refine ⟨fun ⟨runs, hmissing⟩ => ?_, fun has => ?_⟩
  · obtain ⟨typeName, hname⟩ := loadMissing?_ne_none_iff.2 hmissing
    exact ⟨typeName, fun policy => fails_of_loadMissing runs hname policy methods⟩
  obtain ⟨t, hskip, ht⟩ := skip_returns free has methods
  have hreport : ∀ r' t', exec (run .abort methods) s = (.ok r', t') →
      ∀ o ∈ (reportOf s.typeOf methods s.functions).outcomes, o.status ≠ .typeError :=
    fun r' t' h => (course_of_exec h).typeError_free free
  refine ⟨_, t, hskip, ⟨fun ⟨r', t', h⟩ => hreport r' t' h, fun h => ⟨_, _, run_abort_of_skip hskip h⟩⟩, ?_, ?_⟩
  · intro r' t' h
    have hsame := run_abort_of_skip hskip (hreport r' t' h)
    rw [hsame] at h
    cases h
    exact ⟨rfl, rfl⟩
  · intro i o ho
    obtain ⟨result, t', habort⟩ : ∃ result t', exec (run .abort methods) s = (result, t') := ⟨_, _, rfl⟩
    obtain ⟨typeName, rfl, hdetail, hshort⟩ :=
      (course_of_exec habort).of_firstTypeError free ((loadsFreely_iff free).2 has) ho
    exact ⟨typeName, _, t', hdetail, habort, ht ▸ hshort⟩

/-- A library whose catalog lacks a type of the second of three methods. -/
def lackingSecond : Session :=
  { functions :=
      [⟨"JNI_OnLoad", none, [], "undefined", none⟩, ⟨"Java_A_f", none, [], "undefined", none⟩,
        ⟨"Java_A_g", none, [], "undefined", none⟩, ⟨"Java_A_h", none, [], "undefined", none⟩]
    types := [("JNIEnv *", "E"), ("JavaVM *", "V"), ("jint", "I"), ("jobject", "O")]
    known := [], calls := [], printed := [] }

def lackingSecondMethods : List Method :=
  [⟨"A.f", [], "jint", false⟩, ⟨"A.g", ["jstring"], "jint", false⟩, ⟨"A.h", ["jint"], "jint", false⟩]

/-- When missing types are skipped, the first and the third method are applied; otherwise the pass ends after the
first one. -/
theorem lackingSecond_stops_short :
    Unhindered lackingSecond.functions ∧ ¬ LacksLoadTypes lackingSecond.typeOf lackingSecond.functions ∧
      ∃ r t t', exec (run .skip lackingSecondMethods) lackingSecond = (.ok r, t) ∧
        r.outcomes.map (·.status) = [.applied, .typeError, .applied] ∧
        exec (run .abort lackingSecondMethods) lackingSecond =
          (.error (.typeMissing "jstring" "/jni_all.h/jstring"), t') ∧
        ShortOf lackingSecondMethods lackingSecond.functions (lackingSecondMethods.take 1) t.functions t'.functions := by
  have has : ¬ LacksLoadTypes lackingSecond.typeOf lackingSecond.functions := by
    rintro ⟨-, h | h⟩
    · exact absurd h (by decide)
    · exact absurd h (by decide)
  obtain ⟨r, t, hskip, -, -, hfirst⟩ := (abort_against_skip (s := lackingSecond) (by decide) lackingSecondMethods).2 has
  have hr : r = reportOf lackingSecond.typeOf lackingSecondMethods lackingSecond.functions :=
    Except.ok.inj ((congrArg Prod.fst hskip).symm.trans (by decide +kernel))
  have first : FirstTypeError r 1 ⟨some "A.g", some "Java_A_g", .typeError, none,
      some "type not found in catalog: jstring (/jni_all.h/jstring)"⟩ := by
    rw [hr]
    refine ⟨by decide +kernel, rfl, fun j p hj hp => ?_⟩
    obtain rfl : j = 0 := by omega
    have hzero : (reportOf lackingSecond.typeOf lackingSecondMethods lackingSecond.functions).outcomes[0]? =
        some ⟨some "A.f", some "Java_A_f", .applied, some 2, none⟩ := by decide +kernel
    cases hzero.symm.trans hp
    decide
  obtain ⟨typeName, path, t', -, habort, hshort⟩ := hfirst _ _ first
  have he : Except.error (.typeMissing typeName path) =
      (.error (.typeMissing "jstring" "/jni_all.h/jstring") : Except ActionFault Report) :=
    (congrArg Prod.fst habort).symm.trans (by decide +kernel)
  cases he
  refine ⟨by decide, has, r, t, t', hskip, ?_, habort, hshort⟩
  rw [hr]
  decide +kernel

end JniSignatures.Pass
