import Mathlib
import JniSignatures.Pass.Inventory
/-!
# Which functions the inventory finds

The inventory is built from the first function to the last. Here it is described without that order:
a name leads to the last function of that name that is native and not ignored (`lookup_index_iff`),
and the functions that run on loading are those of their name, in the order of the program. Only names
and comments matter (`ofFunctions_congr`), and these no pass ever changes.
-/

namespace JniSignatures

namespace Function

/-- Whether a function may get its signature from a declared method. -/
def isNative (f : Function) : Bool :=
  Symbol.isSymbol f.name && !Symbol.isIgnored f.comment

/-- Whether a function runs when the library is loaded. -/
def isOnLoad (f : Function) : Bool :=
  f.name = Symbol.onLoad

/-- What the inventory reads of a function. -/
def label (f : Function) : String × Option String :=
  (f.name, f.comment)

theorem isSymbol_onLoad : Symbol.isSymbol Symbol.onLoad = false := by decide

theorem isNative_of_isOnLoad {f : Function} (h : f.isOnLoad) : f.isNative = false := by
  have hn : f.name = Symbol.onLoad := by simpa [isOnLoad] using h
  simp [isNative, hn, isSymbol_onLoad]

theorem isOnLoad_congr {f g : Function} (h : f.label = g.label) : f.isOnLoad = g.isOnLoad := by
  simp [isOnLoad, (Prod.mk.inj h).1]

end Function

namespace Inventory

/-- The function at a position is the one that its name leads to: it is native and not ignored, and no
such function of the same name comes after it. -/
structure Stands (fs : List Function) (i : Nat) (f : Function) : Prop where
  here : fs[i]? = some f
  native : f.isNative
  last : ∀ j g, i < j → fs[j]? = some g → g.isNative → g.name ≠ f.name

/-! ## One more function -/

theorem addAll_append (inv : Inventory) (position : Nat) (fs gs : List Function) :
    inv.addAll position (fs ++ gs) = (inv.addAll position fs).addAll (position + fs.length) gs := by
  induction fs generalizing inv position with
  | nil => rfl
  | cons f fs ih =>
    simp only [List.cons_append, addAll, List.length_cons]
    rw [ih, Nat.add_right_comm, Nat.add_assoc]

theorem ofFunctions_concat (fs : List Function) (f : Function) :
    ofFunctions (fs ++ [f]) = (ofFunctions fs).add fs.length f := by
  rw [ofFunctions, addAll_append, Nat.zero_add]
  rfl

theorem add_index (inv : Inventory) (i : Nat) (f : Function) :
    (inv.add i f).index = if f.isNative then Keyed.insert f.name i inv.index else inv.index := by
  unfold add Function.isNative
  by_cases hs : Symbol.isSymbol f.name
  · cases hc : Symbol.isIgnored f.comment <;> simp [hs]
  · rw [if_neg hs]
    simp only [hs, Bool.false_and, Bool.false_eq_true, if_false]
    split <;> rfl

theorem add_onLoad (inv : Inventory) (i : Nat) (f : Function) :
    (inv.add i f).onLoad = if f.isOnLoad then inv.onLoad ++ [i] else inv.onLoad := by
  unfold add Function.isOnLoad
  by_cases ho : f.name = Symbol.onLoad
  · simp [ho, Function.isSymbol_onLoad]
  · by_cases hs : Symbol.isSymbol f.name <;> by_cases hc : Symbol.isIgnored f.comment <;>
      simp [hs, hc, ho]

theorem concat_at_iff {fs : List Function} {f g : Function} {i : Nat} :
    (fs ++ [f])[i]? = some g ↔ fs[i]? = some g ∨ i = fs.length ∧ g = f := by
  rcases Nat.lt_trichotomy i fs.length with h | rfl | h
  · simp [List.getElem?_append_left h, Nat.ne_of_lt h]
  · simp [eq_comm]
  · simp [List.getElem?_eq_none_iff.2 (show (fs ++ [f]).length ≤ i by simp; omega),
      List.getElem?_eq_none_iff.2 (Nat.le_of_lt h), Nat.ne_of_gt h]

/-- A further function stands for its name if it is native; it takes the place of any other one. -/
theorem stands_concat_iff {fs : List Function} {f g : Function} {i : Nat} :
    Stands (fs ++ [f]) i g ↔
      (f.isNative ∧ i = fs.length ∧ g = f) ∨ (Stands fs i g ∧ ¬ (f.isNative ∧ f.name = g.name)) := by
  constructor
  · rintro ⟨here, native, last⟩
    rcases concat_at_iff.1 here with h | ⟨rfl, rfl⟩
    · have hi : i < fs.length := (List.getElem?_eq_some_iff.1 h).1
      refine .inr ⟨⟨h, native, fun j k hj hk => last j k hj (concat_at_iff.2 (.inl hk))⟩, ?_⟩
      rintro ⟨hf, hn⟩
      exact last fs.length f hi (concat_at_iff.2 (.inr ⟨rfl, rfl⟩)) hf hn
    · exact .inl ⟨native, rfl, rfl⟩
  · rintro (⟨hf, rfl, rfl⟩ | ⟨⟨here, native, last⟩, hne⟩)
    · refine ⟨concat_at_iff.2 (.inr ⟨rfl, rfl⟩), hf, fun j k hj hk => ?_⟩
      have := (List.getElem?_eq_some_iff.1 hk).1
      simp only [List.length_append, List.length_singleton] at this
      omega
    · refine ⟨concat_at_iff.2 (.inl here), native, fun j k hj hk hkn => ?_⟩
      rcases concat_at_iff.1 hk with h | ⟨rfl, rfl⟩
      · exact last j k hj h hkn
      · exact fun hn => hne ⟨hkn, hn⟩

/-! ## The whole program -/

/-- A name leads to the last function of that name that is native and not ignored. -/
theorem lookup_index_iff {fs : List Function} {name : String} {i : Nat} :
    (ofFunctions fs).index.lookup name = some i ↔ ∃ f, Stands fs i f ∧ f.name = name := by
  -- Functions are added at the end, where the last one with a name takes it over.
  induction fs using List.reverseRecOn generalizing i with
  | nil =>
    constructor
    · intro h; cases h
    · rintro ⟨f, hf, -⟩; cases hf.here
  | append_singleton fs f ih =>
    rw [ofFunctions_concat, add_index]
    simp only [stands_concat_iff]
    by_cases hf : f.isNative
    · by_cases hn : f.name = name
      · subst hn
        rw [if_pos hf, Keyed.lookup_insert_self]
        constructor
        · intro h
          cases h
          exact ⟨f, .inl ⟨hf, rfl, rfl⟩, rfl⟩
        · rintro ⟨g, ⟨-, rfl, -⟩ | ⟨-, hne⟩, hg⟩
          · rfl
          · exact absurd ⟨hf, hg.symm⟩ hne
      · rw [if_pos hf, Keyed.lookup_insert_of_ne (Ne.symm hn), ih]
        constructor
        · rintro ⟨g, hg, rfl⟩
          exact ⟨g, .inr ⟨hg, fun h => hn h.2⟩, rfl⟩
        · rintro ⟨g, ⟨-, -, rfl⟩ | ⟨hg, -⟩, hgn⟩
          · exact absurd hgn hn
          · exact ⟨g, hg, hgn⟩
    · rw [if_neg hf, ih]
      simp [hf]

theorem lookup_index_eq_none_iff {fs : List Function} {name : String} :
    (ofFunctions fs).index.lookup name = none ↔ ∀ i f, Stands fs i f → f.name ≠ name := by
  constructor
  · intro h i f hf hn
    rw [lookup_index_iff.2 ⟨f, hf, hn⟩] at h
    cases h
  · intro h
    cases hl : (ofFunctions fs).index.lookup name with
    | none => rfl
    | some i =>
      obtain ⟨f, hf, hn⟩ := lookup_index_iff.1 hl
      exact absurd hn (h i f hf)

theorem mem_onLoad_iff {fs : List Function} {i : Nat} :
    i ∈ (ofFunctions fs).onLoad ↔ ∃ f, fs[i]? = some f ∧ f.isOnLoad := by
  induction fs using List.reverseRecOn with
  | nil => simp [ofFunctions, addAll, empty]
  | append_singleton fs f ih =>
    rw [ofFunctions_concat, add_onLoad]
    simp only [concat_at_iff]
    by_cases hf : f.isOnLoad
    · rw [if_pos hf, List.mem_append, ih, List.mem_singleton]
      constructor
      · rintro (⟨g, hg, hgo⟩ | rfl)
        · exact ⟨g, .inl hg, hgo⟩
        · exact ⟨f, .inr ⟨rfl, rfl⟩, hf⟩
      · rintro ⟨g, hg | ⟨rfl, -⟩, hgo⟩
        · exact .inl ⟨g, hg, hgo⟩
        · exact .inr rfl
    · rw [if_neg hf, ih]
      constructor
      · rintro ⟨g, hg, hgo⟩
        exact ⟨g, .inl hg, hgo⟩
      · rintro ⟨g, hg | ⟨-, rfl⟩, hgo⟩
        · exact ⟨g, hg, hgo⟩
        · exact absurd hgo hf

/-- The functions that run on loading are kept in the order of the program, each once. -/
theorem onLoad_sorted (fs : List Function) : (ofFunctions fs).onLoad.Pairwise (· < ·) := by
  induction fs using List.reverseRecOn with
  | nil => exact .nil
  | append_singleton fs f ih =>
    rw [ofFunctions_concat, add_onLoad]
    split
    · refine List.pairwise_append.2 ⟨ih, List.pairwise_singleton _ _, fun i hi j hj => ?_⟩
      obtain ⟨g, hg, -⟩ := mem_onLoad_iff.1 hi
      rw [List.mem_singleton.1 hj]
      exact (List.getElem?_eq_some_iff.1 hg).1
    · exact ih

/-! ## How many there are -/

/-- The names that methods can be matched with, as often as the program has them. -/
def nativeNames (fs : List Function) : List String :=
  (fs.filter Function.isNative).map (·.name)

theorem mem_nativeNames_iff {fs : List Function} {name : String} :
    name ∈ nativeNames fs ↔ ∃ f ∈ fs, f.isNative ∧ f.name = name := by
  simp only [nativeNames, List.mem_map, List.mem_filter, and_assoc]

theorem nativeNames_concat (fs : List Function) (f : Function) :
    nativeNames (fs ++ [f]) = if f.isNative then nativeNames fs ++ [f.name] else nativeNames fs := by
  by_cases hf : f.isNative <;> simp [nativeNames, List.filter_append, hf]

/-- A further function adds its name to the index if it is native and the name is new. -/
theorem indexed_concat (fs : List Function) (f : Function) :
    (ofFunctions (fs ++ [f])).indexed =
      if f.isNative ∧ f.name ∉ (ofFunctions fs).indexed then (ofFunctions fs).indexed ++ [f.name]
      else (ofFunctions fs).indexed := by
  rw [indexed, ofFunctions_concat, add_index]
  by_cases hf : f.isNative
  · by_cases hn : f.name ∈ (ofFunctions fs).indexed
    · rw [if_pos hf, if_neg fun h => h.2 hn]
      exact Keyed.map_fst_insert_of_mem hn _
    · rw [if_pos hf, if_pos ⟨hf, hn⟩, Keyed.insert_of_notMem hn, List.map_append]
      rfl
  · rw [if_neg hf, if_neg fun h => hf h.1]
    rfl

theorem mem_indexed_iff {fs : List Function} {name : String} :
    name ∈ (ofFunctions fs).indexed ↔ name ∈ nativeNames fs := by
  induction fs using List.reverseRecOn with
  | nil => rfl
  | append_singleton fs f ih =>
    rw [indexed_concat, nativeNames_concat]
    by_cases hf : f.isNative
    · by_cases hn : f.name ∈ (ofFunctions fs).indexed
      · rw [if_neg fun h => h.2 hn, if_pos hf, List.mem_append, ih, List.mem_singleton]
        exact (or_iff_left_of_imp fun h : name = f.name => ih.1 (h ▸ hn)).symm
      · rw [if_pos ⟨hf, hn⟩, if_pos hf, List.mem_append, List.mem_append, ih]
    · rw [if_neg fun h => hf h.1, if_neg hf, ih]

/-- A name leads nowhere if no function that methods can be matched with has it. -/
theorem lookup_index_eq_none_iff_notMem {fs : List Function} {name : String} :
    (ofFunctions fs).index.lookup name = none ↔ name ∉ nativeNames fs := by
  rw [← mem_indexed_iff, indexed, List.mem_map, List.lookup_eq_none_iff]
  simp only [bne_iff_ne, ne_eq, not_exists, not_and]
  exact forall₂_congr fun _ _ => not_congr eq_comm

theorem nodup_indexed (fs : List Function) : (ofFunctions fs).indexed.Nodup := by
  induction fs using List.reverseRecOn with
  | nil => exact .nil
  | append_singleton fs f ih =>
    rw [indexed_concat]
    split
    · rename_i h
      exact List.nodup_append.2 ⟨ih, List.nodup_singleton _, fun name hname _ hf =>
        List.mem_singleton.1 hf ▸ fun heq => h.2 (heq ▸ hname)⟩
    · exact ih

/-- Names that are there more than once are indexed once. -/
theorem length_indexed (fs : List Function) : (ofFunctions fs).indexed.length = (nativeNames fs).dedup.length := by
  refine ((List.perm_ext_iff_of_nodup (nodup_indexed fs) (List.nodup_dedup _)).2 fun name => ?_).length_eq
  rw [mem_indexed_iff, List.mem_dedup]

theorem length_indexed_le (fs : List Function) : (ofFunctions fs).indexed.length ≤ (nativeNames fs).length := by
  rw [length_indexed]
  exact (List.dedup_sublist _).length_le

theorem length_indexed_eq_iff (fs : List Function) :
    (ofFunctions fs).indexed.length = (nativeNames fs).length ↔ (nativeNames fs).Nodup := by
  rw [length_indexed, (List.dedup_sublist _).length_eq, List.dedup_eq_self]

theorem add_ignored (inv : Inventory) (i : Nat) (f : Function) :
    (inv.add i f).ignored =
      if Symbol.isSymbol f.name ∧ Symbol.isIgnored f.comment then inv.ignored ++ [f.name] else inv.ignored := by
  unfold add
  by_cases hs : Symbol.isSymbol f.name
  · by_cases hc : Symbol.isIgnored f.comment <;> simp [hs, hc]
  · rw [if_neg hs, if_neg (not_and_of_not_left _ hs)]
    split <;> rfl

/-- A function named like a symbol is ignored, or its name is one that methods can be matched with. -/
theorem length_nativeNames_add_ignored (fs : List Function) :
    (nativeNames fs).length + (ofFunctions fs).ignored.length = fs.countP fun f => Symbol.isSymbol f.name := by
  induction fs using List.reverseRecOn with
  | nil => rfl
  | append_singleton fs f ih =>
    rw [nativeNames_concat, ofFunctions_concat, add_ignored, List.countP_append, ← ih]
    by_cases hs : Symbol.isSymbol f.name <;> by_cases hc : Symbol.isIgnored f.comment <;>
      simp [Function.isNative, hs, hc] <;> omega

theorem length_onLoad (fs : List Function) : (ofFunctions fs).onLoad.length = fs.countP Function.isOnLoad := by
  induction fs using List.reverseRecOn with
  | nil => rfl
  | append_singleton fs f ih =>
    rw [ofFunctions_concat, add_onLoad, List.countP_append, ← ih]
    by_cases hf : f.isOnLoad <;> simp [hf]

/-! ## Only names and comments matter -/

theorem add_congr {inv : Inventory} {i : Nat} {f g : Function} (h : f.label = g.label) :
    inv.add i f = inv.add i g := by
  obtain ⟨hn, hc⟩ := Prod.mk.inj h
  simp [add, hn, hc]

theorem ofFunctions_congr {fs gs : List Function} (h : fs.map Function.label = gs.map Function.label) :
    ofFunctions fs = ofFunctions gs := by
  have main : ∀ (inv : Inventory) (position : Nat), inv.addAll position fs = inv.addAll position gs := by
    induction fs generalizing gs with
    | nil =>
      intro inv position
      rw [List.map_nil, eq_comm, List.map_eq_nil_iff] at h
      rw [h]
    | cons f fs ih =>
      intro inv position
      cases gs with
      | nil => cases h
      | cons g gs =>
        obtain ⟨hl, ht⟩ := List.cons.inj h
        rw [addAll, addAll, add_congr hl, ih ht]
  exact main empty 0

end Inventory

end JniSignatures
