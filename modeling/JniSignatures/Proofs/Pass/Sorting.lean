import Mathlib
import JniSignatures.Proofs.Pass.Index
import JniSignatures.Proofs.Running
/-!
# Each function is sorted once

The inventory is built by going through the program, and what it keeps of a function depends on those before
it. Seen from the end it is a division of the program (`Inventory.Divides`): the names in the index come in the
order in which they are first met and lead to the functions that are met last, the ignored names and the
functions that run on loading keep the order of the program, and no function counts twice (`take_divides`).
-/

namespace JniSignatures

/-! ## What is looked for in names and comments -/

namespace Symbol

theorem occursIn_iff {piece cs : List Char} : occursIn piece cs ↔ piece <:+: cs := by
  induction cs with
  | nil => rw [occursIn, List.isEmpty_iff, List.infix_nil]
  | cons c cs ih => rw [occursIn, Bool.or_eq_true, ih, List.isPrefixOf_iff_prefix, List.infix_cons_iff]

theorem isSymbol_iff {name : String} : isSymbol name ↔ lead <+: name.toList := by
  rw [isSymbol, List.isPrefixOf_iff_prefix]

theorem isIgnored_iff {comment : Option String} :
    isIgnored comment ↔ ∃ text, comment = some text ∧ ignoreMark.toList <:+: text.toList := by
  cases comment with
  | none => simp [isIgnored]
  | some text => simp [isIgnored, occursIn_iff]

end Symbol

namespace Function

/-- Whether a function is named like a symbol but kept out of the matching. -/
def isIgnored (f : Function) : Bool :=
  Symbol.isSymbol f.name && Symbol.isIgnored f.comment

/-- The comment of a function holds the remark that keeps it out. -/
def IsMarked (f : Function) : Prop :=
  ∃ text, f.comment = some text ∧ Symbol.ignoreMark.toList <:+: text.toList

theorem isNative_iff {f : Function} : f.isNative ↔ Symbol.lead <+: f.name.toList ∧ ¬ f.IsMarked := by
  rw [isNative, Bool.and_eq_true, Symbol.isSymbol_iff, Bool.not_eq_true', Bool.eq_false_iff, Ne, Symbol.isIgnored_iff]
  rfl

theorem isIgnored_iff {f : Function} : f.isIgnored ↔ Symbol.lead <+: f.name.toList ∧ f.IsMarked := by
  rw [isIgnored, Bool.and_eq_true, Symbol.isSymbol_iff, Symbol.isIgnored_iff]
  rfl

theorem isOnLoad_iff {f : Function} : f.isOnLoad ↔ f.name = Symbol.onLoad := by
  rw [isOnLoad, decide_eq_true_iff]

theorem isSymbol_of_isNative {f : Function} (h : f.isNative) : Symbol.isSymbol f.name :=
  (Bool.and_eq_true_iff.1 h).1

theorem isSymbol_of_isIgnored {f : Function} (h : f.isIgnored) : Symbol.isSymbol f.name :=
  (Bool.and_eq_true_iff.1 h).1

/-- A function that is matched is not ignored. -/
theorem not_isIgnored_of_isNative {f : Function} (h : f.isNative) : ¬ f.isIgnored :=
  fun hi => (isNative_iff.1 h).2 (isIgnored_iff.1 hi).2

/-- The name of the function that runs on loading is no symbol. -/
theorem not_isOnLoad_of_isSymbol {f : Function} (h : Symbol.isSymbol f.name) : ¬ f.isOnLoad := by
  intro ho
  rw [isOnLoad_iff.1 ho, isSymbol_onLoad] at h
  cases h

end Function

namespace Inventory

/-- An inventory divides the functions of a program: each belongs to the index, to the ignored ones, to those
that run on loading or to none of them. -/
structure Divides (fs : List Function) (inv : Inventory) : Prop where
  keys : inv.index.map Prod.fst = (nativeNames fs).eraseDups
  values : ∀ name i, (name, i) ∈ inv.index ↔ ∃ f, Stands fs i f ∧ f.name = name
  ignored : inv.ignored = (fs.filter Function.isIgnored).map (·.name)
  onLoad : inv.onLoad = fs.findIdxs Function.isOnLoad
  apart : (inv.index.map Prod.snd).Disjoint (fs.findIdxs Function.isIgnored) ∧
    (inv.index.map Prod.snd).Disjoint inv.onLoad ∧ (fs.findIdxs Function.isIgnored).Disjoint inv.onLoad
  others : ∀ i f, fs[i]? = some f → ¬ Symbol.lead <+: f.name.toList → f.name ≠ Symbol.onLoad →
    f.name ∉ inv.index.map Prod.fst ∧ i ∉ inv.index.map Prod.snd ∧ f.name ∉ inv.ignored ∧ i ∉ inv.onLoad

/-! ## The parts of an inventory -/

section Parts

variable {fs : List Function}

theorem mem_findIdxs_iff {p : Function → Bool} {i : Nat} : i ∈ fs.findIdxs p ↔ ∃ f, fs[i]? = some f ∧ p f := by
  rw [List.mem_findIdxs_iff_exists_getElem_pos]
  constructor
  · rintro ⟨hi, hp⟩
    exact ⟨fs[i], List.getElem?_eq_getElem hi, hp⟩
  · rintro ⟨f, hf, hp⟩
    obtain ⟨hi, rfl⟩ := List.getElem?_eq_some_iff.1 hf
    exact ⟨hi, hp⟩

/-- A name that is new goes to the end of the names without repetitions. -/
theorem eraseDups_concat (names : List String) (name : String) :
    (names ++ [name]).eraseDups = if name ∈ names then names.eraseDups else names.eraseDups ++ [name] := by
  rw [List.eraseDups_append]
  split_ifs with h
  · rw [List.removeAll, List.filter_cons_of_neg (by simpa using h)]
    simp
  · rw [List.removeAll, List.filter_cons_of_pos (by simpa using h)]
    rfl

/-- The index has its names in the order in which they first occur. -/
theorem indexed_eq (fs : List Function) : (ofFunctions fs).indexed = (nativeNames fs).eraseDups := by
  induction fs using List.reverseRecOn with
  | nil => rfl
  | append_singleton fs f ih =>
    rw [indexed_concat, nativeNames_concat]
    by_cases hf : f.isNative
    · rw [if_pos hf, eraseDups_concat, ← ih]
      by_cases hn : f.name ∈ nativeNames fs
      · rw [if_pos hn, if_neg fun h => h.2 (mem_indexed_iff.2 hn)]
      · rw [if_neg hn, if_pos ⟨hf, fun h => hn (mem_indexed_iff.1 h)⟩]
    · rw [if_neg hf, if_neg fun h => hf h.1, ih]

/-- Since no name occurs twice, an entry of the index is what its name leads to. -/
theorem mem_index_iff {name : String} {i : Nat} :
    (name, i) ∈ (ofFunctions fs).index ↔ ∃ f, Stands fs i f ∧ f.name = name := by
  rw [← lookup_index_iff]
  constructor
  · exact Keyed.lookup_of_mem (nodup_indexed fs)
  · intro h
    obtain ⟨front, back, hindex, -⟩ := List.lookup_eq_some_iff.1 h
    rw [hindex]
    exact List.mem_append_right _ List.mem_cons_self

theorem mem_values {i : Nat} (h : i ∈ (ofFunctions fs).index.map Prod.snd) : ∃ f, fs[i]? = some f ∧ f.isNative := by
  obtain ⟨⟨name, j⟩, hentry, rfl⟩ := List.mem_map.1 h
  obtain ⟨f, hf, -⟩ := mem_index_iff.1 hentry
  exact ⟨f, hf.here, hf.native⟩

theorem ignored_eq (fs : List Function) :
    (ofFunctions fs).ignored = (fs.filter Function.isIgnored).map (·.name) := by
  induction fs using List.reverseRecOn with
  | nil => rfl
  | append_singleton fs f ih =>
    rw [ofFunctions_concat, add_ignored, ih, List.filter_append, List.map_append]
    by_cases hf : f.isIgnored
    · rw [if_pos (Bool.and_eq_true_iff.1 hf), List.filter_cons_of_pos hf]
      rfl
    · rw [if_neg fun h => hf (Bool.and_eq_true_iff.2 h), List.filter_cons_of_neg hf, List.filter_nil, List.map_nil,
        List.append_nil]

theorem onLoad_eq (fs : List Function) : (ofFunctions fs).onLoad = fs.findIdxs Function.isOnLoad := by
  induction fs using List.reverseRecOn with
  | nil => rfl
  | append_singleton fs f ih =>
    rw [ofFunctions_concat, add_onLoad, ih, List.findIdxs_append, List.findIdxs_singleton, Nat.zero_add]
    split_ifs
    · rfl
    · rw [List.append_nil]

end Parts

/-! ## The division -/

/-- A function that belongs to two parts would have two different names or comments. -/
theorem disjoint_of_functions {fs : List Function} {is js : List Nat} {p q : Function → Bool}
    (hi : ∀ i ∈ is, ∃ f, fs[i]? = some f ∧ p f) (hj : ∀ j ∈ js, ∃ f, fs[j]? = some f ∧ q f)
    (hpq : ∀ f, p f → ¬ q f) : is.Disjoint js := by
  intro i hp hq
  obtain ⟨f, hf, hpf⟩ := hi i hp
  obtain ⟨g, hg, hqg⟩ := hj i hq
  obtain rfl : f = g := Option.some.inj (hf.symm.trans hg)
  exact hpq f hpf hqg

theorem divides_ofFunctions (fs : List Function) : Divides fs (ofFunctions fs) := by
  have hignored : ∀ i ∈ fs.findIdxs Function.isIgnored, ∃ f, fs[i]? = some f ∧ f.isIgnored :=
    fun i => mem_findIdxs_iff.1
  have honLoad : ∀ i ∈ (ofFunctions fs).onLoad, ∃ f, fs[i]? = some f ∧ f.isOnLoad :=
    fun i => mem_onLoad_iff.1
  refine ⟨indexed_eq fs, fun name i => mem_index_iff, ignored_eq fs, onLoad_eq fs, ⟨?_, ?_, ?_⟩, ?_⟩
  · exact disjoint_of_functions (fun i => mem_values) hignored fun f => Function.not_isIgnored_of_isNative
  · exact disjoint_of_functions (fun i => mem_values) honLoad fun f hf =>
      Function.not_isOnLoad_of_isSymbol (Function.isSymbol_of_isNative hf)
  · exact disjoint_of_functions hignored honLoad fun f hf =>
      Function.not_isOnLoad_of_isSymbol (Function.isSymbol_of_isIgnored hf)
  · intro i f hf hname honLoad
    have hnot : ¬ Symbol.isSymbol f.name := fun h => hname (Symbol.isSymbol_iff.1 h)
    refine ⟨?_, ?_, ?_, ?_⟩
    · intro h
      obtain ⟨g, -, hg, hn⟩ := mem_nativeNames_iff.1 (mem_indexed_iff.1 h)
      exact hnot (hn ▸ Function.isSymbol_of_isNative hg)
    · intro h
      obtain ⟨g, hg, hnative⟩ := mem_values h
      obtain rfl : f = g := Option.some.inj (hf.symm.trans hg)
      exact hnot (Function.isSymbol_of_isNative hnative)
    · rw [ignored_eq]
      intro h
      obtain ⟨g, hg, hn⟩ := List.mem_map.1 h
      have hsymbol := Function.isSymbol_of_isIgnored (List.mem_filter.1 hg).2
      exact hnot (hn ▸ hsymbol)
    · intro h
      obtain ⟨g, hg, ho⟩ := mem_onLoad_iff.1 h
      obtain rfl : f = g := Option.some.inj (hf.symm.trans hg)
      exact honLoad (Function.isOnLoad_iff.1 ho)

/-- Taking the inventory lists the functions once and divides them: by whether their names start like a symbol,
whether their comments hold the remark, and whether they are named like the one that runs on loading. -/
theorem take_divides (s : Session) :
    (∀ f : Function, (f.isNative ↔ Symbol.lead <+: f.name.toList ∧ ¬ f.IsMarked) ∧
      (f.isIgnored ↔ Symbol.lead <+: f.name.toList ∧ f.IsMarked) ∧ (f.isOnLoad ↔ f.name = Symbol.onLoad)) ∧
    ∃ inv, exec take s = (.ok inv, { s with calls := s.calls ++ [.listFunctions] }) ∧ Divides s.functions inv :=
  ⟨fun _ => ⟨Function.isNative_iff, Function.isIgnored_iff, Function.isOnLoad_iff⟩,
    ofFunctions s.functions, rfl, divides_ofFunctions s.functions⟩

/-- An ignored function between two of its name: the name keeps its first place and leads to the last. -/
example : ofFunctions [⟨"Java_a", none, [], "", none⟩, ⟨"Java_b", none, [], "", none⟩,
      ⟨"Java_a", some "JNIAnalyzer:IGNORE", [], "", none⟩, ⟨"JNI_OnLoad", none, [], "", none⟩,
      ⟨"Java_a", none, [], "", none⟩] =
    ⟨[("Java_a", 4), ("Java_b", 1)], ["Java_a"], [3]⟩ := by
  decide +kernel

end Inventory

end JniSignatures
