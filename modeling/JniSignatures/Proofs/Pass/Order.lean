import Mathlib
import JniSignatures.Proofs.Pass.Steps
import JniSignatures.Proofs.Pass.Unhindered
/-!
# The order of the methods, and passes one after the other

What a pass does to a function is settled by which methods are declared and not by their order, because no
two methods are applied to one function. So a pass over the same methods in another order leaves the same
functions, and its outcomes go along with the methods (`reordering_harmless`). For the same reason the
methods may be split into two passes, if the symbols of the one part are not in the other
(`splitting_harmless`).
-/

namespace JniSignatures.Pass

variable {types : TypeMap} {methods methods' first second : List Method} {fs gs : List Function} {i : Nat}
  {f : Function} {m : Method} {signature : Signature}

/-- A verdict depends on the other methods only by whether the symbol is shared. -/
theorem judge_eq_of_shared
    (h : Symbol.ofName m.qualifiedName ∈ Symbol.shared (methods'.map (·.qualifiedName)) ↔
      Symbol.ofName m.qualifiedName ∈ Symbol.shared (methods.map (·.qualifiedName))) :
    judge types methods' fs m = judge types methods fs m := by
  have hc : (Symbol.shared (methods'.map (·.qualifiedName))).contains (Symbol.ofName m.qualifiedName) =
      (Symbol.shared (methods.map (·.qualifiedName))).contains (Symbol.ofName m.qualifiedName) := by
    rw [Bool.eq_iff_iff, List.contains_iff_mem, List.contains_iff_mem, h]
  rw [judge, judge, verdict, verdict, hc]

/-! ## Another order -/

section Reordering

theorem owners_perm (h : methods'.Perm methods) (symbol : String) :
    (Symbol.owners methods' symbol).Perm (Symbol.owners methods symbol) :=
  h.filter _

theorem judge_perm (h : methods'.Perm methods) : judge types methods' fs = judge types methods fs := by
  funext m
  refine judge_eq_of_shared ?_
  rw [Symbol.mem_shared_iff, Symbol.mem_shared_iff, (owners_perm h _).length_eq]

theorem Applies.perm (h : methods'.Perm methods) (ha : Applies types methods fs i f m signature) :
    Applies types methods' fs i f m signature := by
  refine ⟨ha.stands, ?_, ha.fits⟩
  have hp := owners_perm h f.name
  rw [ha.alone] at hp
  exact List.perm_singleton.1 hp

/-- Which signature a function gets does not depend on the order, because it gets at most one. -/
theorem newSignature?_perm (h : methods'.Perm methods) (i : Nat) :
    newSignature? (judge types methods' fs) methods' i = newSignature? (judge types methods fs) methods i := by
  refine Option.ext fun signature => ?_
  rw [newSignature?_eq_some_iff (List.Subset.refl methods'), newSignature?_eq_some_iff (List.Subset.refl methods)]
  constructor
  · rintro ⟨m, hm, f, ha⟩
    exact ⟨m, h.mem_iff.1 hm, f, ha.perm h.symm⟩
  · rintro ⟨m, hm, f, ha⟩
    exact ⟨m, h.mem_iff.2 hm, f, ha.perm h⟩

theorem reached_perm (h : methods'.Perm methods) : reached types methods' fs methods' = reached types methods fs methods := by
  unfold reached
  simp only [newSignature?_perm h]

/-- Reports on the same methods in another order, each outcome at the place of its method. -/
structure Reordered {n : Nat} (σ : Equiv.Perm (Fin n)) (r r' : Report) : Prop where
  indexed : r'.indexed = r.indexed
  ignored : r'.ignored = r.ignored
  onLoadModified : r'.onLoadModified = r.onLoadModified
  outcomes : ∃ outcome : Fin n → Outcome, r.outcomes = List.ofFn outcome ∧ r'.outcomes = List.ofFn (outcome ∘ σ)

theorem reordered_reportOf {n : Nat} (σ : Equiv.Perm (Fin n)) (declared : Fin n → Method) (types : TypeMap)
    (fs : List Function) :
    Reordered σ (reportOf types (List.ofFn declared) fs) (reportOf types (List.ofFn (declared ∘ σ)) fs) := by
  refine ⟨rfl, rfl, rfl, fun k => (judge types (List.ofFn declared) fs (declared k)).outcome (declared k), ?_, ?_⟩
  · exact List.map_ofFn ..
  · rw [reportOf, judge_perm (σ.ofFn_comp_perm declared)]
    exact List.map_ofFn ..

/-- The order of the methods does not matter where the host refuses nothing. Under `skip`, two passes over
the same methods in two orders fail with the same missing type and change nothing, or both return, with
the same functions and with reports that differ by the order of the methods only. Under `abort`, one
returns if the other one does, and then the same holds. -/
theorem reordering_harmless {n : Nat} (σ : Equiv.Perm (Fin n)) (declared : Fin n → Method) {s : Session}
    (free : Unhindered s.functions) :
    ((∃ typeName t t',
        exec (run .skip (List.ofFn declared)) s = (.error (.typeMissing typeName (Catalog.path typeName)), t) ∧
        exec (run .skip (List.ofFn (declared ∘ σ))) s = (.error (.typeMissing typeName (Catalog.path typeName)), t') ∧
        t.functions = s.functions ∧ t'.functions = s.functions) ∨
      ∃ r r' t t', exec (run .skip (List.ofFn declared)) s = (.ok r, t) ∧
        exec (run .skip (List.ofFn (declared ∘ σ))) s = (.ok r', t') ∧
        t'.functions = t.functions ∧ Reordered σ r r') ∧
    ((∃ r t, exec (run .abort (List.ofFn declared)) s = (.ok r, t)) ↔
      ∃ r' t', exec (run .abort (List.ofFn (declared ∘ σ))) s = (.ok r', t')) ∧
    ∀ r r' t t', exec (run .abort (List.ofFn declared)) s = (.ok r, t) →
      exec (run .abort (List.ofFn (declared ∘ σ))) s = (.ok r', t') →
      t'.functions = t.functions ∧ Reordered σ r r' := by
  have hperm := σ.ofFn_comp_perm declared
  have hreport := reordered_reportOf σ declared s.typeOf s.functions
  refine ⟨?_, ?_, fun r r' t t' h h' => ?_⟩
  · by_cases has : LacksLoadTypes s.typeOf s.functions
    · obtain ⟨typeName, hname⟩ := loadMissing?_ne_none_iff.2 has.2
      obtain ⟨t, h, ht⟩ := fails_of_loadMissing has.1 hname .skip (List.ofFn declared)
      obtain ⟨t', h', ht'⟩ := fails_of_loadMissing has.1 hname .skip (List.ofFn (declared ∘ σ))
      exact .inl ⟨typeName, t, t', h, h', ht, ht'⟩
    · obtain ⟨t, h, ht⟩ := skip_returns free has (List.ofFn declared)
      obtain ⟨t', h', ht'⟩ := skip_returns free has (List.ofFn (declared ∘ σ))
      exact .inr ⟨_, _, t, t', h, h', by rw [ht', ht, reached_perm hperm], hreport⟩
  · rw [abort_returns_iff free, abort_returns_iff free, judge_perm hperm]
    simp only [hperm.mem_iff]
  · obtain ⟨rfl, ht⟩ := reached_of_return h
    obtain ⟨rfl, ht'⟩ := reached_of_return h'
    exact ⟨by rw [ht', ht, reached_perm hperm], hreport⟩

/-- A library with a function that runs on loading and two native ones. -/
def twoNatives : Session :=
  { functions :=
      [⟨"JNI_OnLoad", none, [], "undefined", none⟩, ⟨"Java_A_f", none, [], "undefined", none⟩,
        ⟨"Java_A_g", none, [], "undefined", none⟩]
    types := [("JNIEnv *", "E"), ("JavaVM *", "V"), ("jint", "I"), ("jobject", "O")]
    known := [], calls := [], printed := [] }

/-- Methods of `twoNatives`, one of them of a function that is not there. -/
def oneAbsentMethods : Fin 3 → Method :=
  ![⟨"A.f", [], "jint", false⟩, ⟨"A.h", [], "jint", false⟩, ⟨"A.g", ["jint"], "jint", false⟩]

/-- After the rotation the method of the absent function comes first. -/
theorem oneAbsent_rotated : ∃ r r' t t', exec (run .skip (List.ofFn oneAbsentMethods)) twoNatives = (.ok r, t) ∧
    exec (run .skip (List.ofFn (oneAbsentMethods ∘ finRotate 3))) twoNatives = (.ok r', t') ∧
    r'.outcomes.map (·.status) = [.noMatch, .applied, .applied] ∧
    t'.functions = t.functions ∧ Reordered (finRotate 3) r r' := by
  have hfirst : (exec (run .skip (List.ofFn oneAbsentMethods)) twoNatives).1 =
      .ok (reportOf twoNatives.typeOf (List.ofFn oneAbsentMethods) twoNatives.functions) := by decide +kernel
  rcases (reordering_harmless (finRotate 3) oneAbsentMethods (s := twoNatives) (by decide)).1 with
    ⟨typeName, t, t', h, -⟩ | ⟨r, r', t, t', h, h', hfunctions, hreport⟩
  · cases hfirst.symm.trans (congrArg Prod.fst h)
  · refine ⟨r, r', t, t', h, h', ?_, hfunctions, hreport⟩
    have hsecond : (exec (run .skip (List.ofFn (oneAbsentMethods ∘ finRotate 3))) twoNatives).1 =
        .ok (reportOf twoNatives.typeOf (List.ofFn (oneAbsentMethods ∘ finRotate 3)) twoNatives.functions) := by
      decide +kernel
    cases hsecond.symm.trans (congrArg Prod.fst h')
    decide +kernel

end Reordering

/-! ## Two passes -/

section Splitting

/-- No method of the one list has the symbol of a method of the other one. -/
def Apart (first second : List Method) : Prop :=
  ∀ a ∈ first, ∀ b ∈ second, Symbol.ofName a.qualifiedName ≠ Symbol.ofName b.qualifiedName

instance (first second : List Method) : Decidable (Apart first second) :=
  inferInstanceAs (Decidable (∀ a ∈ first, ∀ b ∈ second,
    Symbol.ofName a.qualifiedName ≠ Symbol.ofName b.qualifiedName))

theorem Apart.owners_eq_nil (h : Apart first second) (hm : m ∈ first) :
    Symbol.owners second (Symbol.ofName m.qualifiedName) = [] := by
  refine List.filter_eq_nil_iff.2 fun b hb => ?_
  simpa using (h m hm b hb).symm

theorem Apart.symm (h : Apart first second) : Apart second first :=
  fun b hb a ha => (h a ha b hb).symm

theorem judge_append_left (h : Apart first second) (hm : m ∈ first) :
    judge types (first ++ second) fs m = judge types first fs m := by
  refine judge_eq_of_shared ?_
  rw [Symbol.mem_shared_iff, Symbol.mem_shared_iff, Symbol.owners, List.filter_append, ← Symbol.owners,
    ← Symbol.owners, h.owners_eq_nil hm, List.append_nil]

theorem judge_append_right (h : Apart first second) (hm : m ∈ second) :
    judge types (first ++ second) fs m = judge types second fs m := by
  rw [judge_perm List.perm_append_comm, judge_append_left h.symm hm]

theorem newSignature?_congr {v w : Method → Verdict} (h : ∀ m ∈ methods, v m = w m) (i : Nat) :
    newSignature? v methods i = newSignature? w methods i := by
  induction methods using List.reverseRecOn with
  | nil => rfl
  | append_singleton rest m ih =>
    rw [newSignature?_concat, newSignature?_concat, h m (by simp), ih fun n hn => h n (by simp [hn])]

theorem newSignature?_append (v : Method → Verdict) (first second : List Method) (i : Nat) :
    newSignature? v (first ++ second) i = (newSignature? v second i).or (newSignature? v first i) := by
  rw [newSignature?, List.reverse_append, List.findSome?_append]
  rfl

theorem isOnLoad_resigned (f : Function) (signature? : Option Signature) :
    (f.resigned signature?).isOnLoad = f.isOnLoad := by
  cases signature? <;> rfl

/-- What both parts reach together is what the second part reaches from where the first one has come. -/
theorem reached_append (h : Apart first second) :
    reached types (first ++ second) fs (first ++ second) =
      reached types second (reached types first fs first) second := by
  have hlabels : (reached types first fs first).map Function.label = fs.map Function.label :=
    (absorbed_reached (List.Subset.refl first)).labels
  refine List.ext_getElem? fun i => ?_
  cases hf : fs[i]? with
  | none => simp [reached, hf]
  | some f =>
    rw [reached_getElem? hf, reached_getElem? (reached_getElem? hf), judge_congr hlabels, newSignature?_append,
      newSignature?_congr (fun m hm => judge_append_left h hm) i,
      newSignature?_congr (fun m hm => judge_append_right h hm) i]
    by_cases ho : f.isOnLoad
    · have hloaded : (loaded types f).isOnLoad := ho
      rw [if_pos ho, if_pos ho, if_pos hloaded]
      rfl
    · rw [if_neg ho, if_neg ho, isOnLoad_resigned, if_neg ho, resigned_resigned]

theorem reportOf_append (h : Apart first second) :
    (reportOf types (first ++ second) fs).outcomes =
      (reportOf types first fs).outcomes ++ (reportOf types second fs).outcomes := by
  simp only [reportOf, List.map_append]
  refine congrArg₂ _ (List.map_congr_left fun m hm => ?_) (List.map_congr_left fun m hm => ?_)
  · rw [judge_append_left h hm]
  · rw [judge_append_right h hm]

/-- A pass leaves the host as willing as it was. -/
theorem unhindered_reached (free : Unhindered fs) : Unhindered (reached types methods fs methods) := by
  intro g hg
  obtain ⟨i, hi⟩ := List.mem_iff_getElem?.1 hg
  cases hf : fs[i]? with
  | none => simp [reached, hf] at hi
  | some f =>
    have hr := refusal_none_of_unhindered free hf
    rw [reached_getElem? hf] at hi
    cases hi
    split
    · exact hr
    · cases newSignature? (judge types methods fs) methods i <;> exact hr

theorem lacksLoadTypes_of_labels (h : gs.map Function.label = fs.map Function.label) (hl : LacksLoadTypes types gs) :
    LacksLoadTypes types fs := by
  obtain ⟨⟨g, hg, ho⟩, hmissing⟩ := hl
  obtain ⟨f, hf, hlabel⟩ := List.mem_map.1 (h ▸ List.mem_map_of_mem hg : g.label ∈ fs.map Function.label)
  exact ⟨⟨f, hf, (Function.isOnLoad_congr hlabel).trans ho⟩, hmissing⟩

/-- Methods may be declared in two passes instead of one, if no symbol is in both parts, the host refuses
nothing and no type is missing on loading. Under `skip` all three passes return; the second one leaves the
functions that the pass over all methods leaves, and the outcomes of this one are theirs, put one after
the other. The second pass may go on with the catalog of the first one; or both may begin with a fresh one. -/
theorem splitting_harmless {s : Session} (free : Unhindered s.functions)
    (base : ∃ r t, exec (run .skip []) s = (.ok r, t)) (apart : Apart first second) :
    ∃ r t r₁ t₁, exec (run .skip (first ++ second)) s = (.ok r, t) ∧ exec (run .skip first) s = (.ok r₁, t₁) ∧
      ∀ known, (known = t₁.known ∨ (s.known = [] ∧ known = [])) →
        ∃ r₂ t₂, exec (run .skip second) { t₁ with known } = (.ok r₂, t₂) ∧ t₂.functions = t.functions ∧
          r.outcomes = r₁.outcomes ++ r₂.outcomes ∧
          (r₁.indexed = r.indexed ∧ r₂.indexed = r.indexed) ∧
          (r₁.ignored = r.ignored ∧ r₂.ignored = r.ignored) ∧
          r₁.onLoadModified = r.onLoadModified ∧ r₂.onLoadModified = r.onLoadModified := by
  have has : ¬ LacksLoadTypes s.typeOf s.functions := by
    rintro ⟨runs, hmissing⟩
    obtain ⟨typeName, hname⟩ := loadMissing?_ne_none_iff.2 hmissing
    obtain ⟨t, h, -⟩ := fails_of_loadMissing runs hname .skip []
    obtain ⟨r, t', h'⟩ := base
    cases h.symm.trans h'
  obtain ⟨t, hall, ht⟩ := skip_returns free has (first ++ second)
  obtain ⟨t₁, h₁, ht₁⟩ := skip_returns free has first
  refine ⟨_, t, _, t₁, hall, h₁, fun known hknown => ?_⟩
  have htypes : ({ t₁ with known } : Session).typeOf = s.typeOf := by
    rcases hknown with rfl | ⟨hs, rfl⟩
    · exact typeOf_of_exec h₁
    · funext typeName
      simp [Session.typeOf, hs, types_of_exec h₁]
  have hlabels : t₁.functions.map Function.label = s.functions.map Function.label := by
    rw [ht₁]
    exact (absorbed_reached (List.Subset.refl first)).labels
  have free₁ : Unhindered ({ t₁ with known } : Session).functions := by
    show Unhindered t₁.functions
    rw [ht₁]
    exact unhindered_reached free
  have has₁ : ¬ LacksLoadTypes ({ t₁ with known } : Session).typeOf ({ t₁ with known } : Session).functions := by
    rw [htypes]
    exact fun hl => has (lacksLoadTypes_of_labels hlabels hl)
  obtain ⟨t₂, h₂, ht₂⟩ := skip_returns free₁ has₁ second
  rw [htypes] at h₂ ht₂
  have hreport : reportOf s.typeOf second t₁.functions = reportOf s.typeOf second s.functions :=
    reportOf_congr hlabels
  refine ⟨_, t₂, h₂, ?_, ?_, ?_⟩
  · rw [ht₂, ht, reached_append apart, ← ht₁]
  · rw [reportOf_append apart]
    exact congrArg (_ ++ ·.outcomes) hreport.symm
  · dsimp only
    rw [hreport]
    exact ⟨⟨rfl, rfl⟩, ⟨rfl, rfl⟩, rfl, rfl⟩

/-- The method of the absent function is in the first part. -/
theorem oneAbsent_split : Apart [oneAbsentMethods 0, oneAbsentMethods 1] [oneAbsentMethods 2] ∧
    ∃ r t r₁ t₁ r₂ t₂, exec (run .skip (List.ofFn oneAbsentMethods)) twoNatives = (.ok r, t) ∧
      exec (run .skip [oneAbsentMethods 0, oneAbsentMethods 1]) twoNatives = (.ok r₁, t₁) ∧
      exec (run .skip [oneAbsentMethods 2]) { t₁ with known := [] } = (.ok r₂, t₂) ∧
      t₂.functions = t.functions ∧ r.outcomes = r₁.outcomes ++ r₂.outcomes := by
  have apart : Apart [oneAbsentMethods 0, oneAbsentMethods 1] [oneAbsentMethods 2] := by decide +kernel
  obtain ⟨r, t, r₁, t₁, h, h₁, hnext⟩ := splitting_harmless (s := twoNatives) (by decide) ⟨_, _, rfl⟩ apart
  obtain ⟨r₂, t₂, h₂, hfunctions, houtcomes, -⟩ := hnext [] (.inr ⟨rfl, rfl⟩)
  exact ⟨apart, r, t, r₁, t₁, r₂, t₂, h, h₁, h₂, hfunctions, houtcomes⟩

end Splitting

end JniSignatures.Pass
