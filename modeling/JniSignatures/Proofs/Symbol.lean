import Mathlib
import JniSignatures.Methods.Method
import JniSignatures.Symbol
/-!
# Shared symbols

A symbol counts as shared if more than one declared method has it, be it under one qualified name or
under several (`mem_shared_iff`). A method whose symbol is not shared is the only one that has it.
-/

namespace JniSignatures.Symbol

/-- The methods that have a symbol. -/
def owners (methods : List Method) (symbol : String) : List Method :=
  methods.filter fun m => ofName m.qualifiedName = symbol

theorem count_eq_owners (methods : List Method) (symbol : String) :
    count (methods.map (·.qualifiedName)) symbol = (owners methods symbol).length := by
  rw [count, owners, List.map_map, List.count, List.countP_map, List.countP_eq_length_filter]
  refine congrArg List.length (List.filter_congr fun m _ => ?_)
  rw [Bool.eq_iff_iff, Function.comp_apply, Function.comp_apply, beq_iff_eq, decide_eq_true_iff]

theorem mem_shared_iff {methods : List Method} {symbol : String} :
    symbol ∈ shared (methods.map (·.qualifiedName)) ↔ 1 < (owners methods symbol).length := by
  rw [shared, List.mem_filter, List.mem_eraseDups, count_eq_owners, decide_eq_true_iff]
  refine and_iff_right_of_imp fun h => ?_
  obtain ⟨m, hm⟩ := List.exists_mem_of_length_pos (Nat.lt_of_succ_lt h)
  obtain ⟨hm, hs⟩ := List.mem_filter.1 hm
  exact List.mem_map.2 ⟨m.qualifiedName, List.mem_map_of_mem hm, by simpa using hs⟩

/-- Methods that share their symbol come two at least. -/
theorem countP_shared_ne_one (methods : List Method) :
    methods.countP (fun m => ofName m.qualifiedName ∈ shared (methods.map (·.qualifiedName))) ≠ 1 := by
  intro h
  have hpos : 0 < methods.countP fun m => ofName m.qualifiedName ∈ shared (methods.map (·.qualifiedName)) := by
    rw [h]
    exact Nat.one_pos
  obtain ⟨m, -, hm⟩ := List.countP_pos_iff.1 hpos
  rw [decide_eq_true_iff] at hm
  have hle : (owners methods (ofName m.qualifiedName)).length ≤ 1 := by
    rw [owners, ← List.countP_eq_length_filter, ← h]
    refine List.countP_mono_left fun n _ hn => ?_
    rw [decide_eq_true_iff] at hn ⊢
    rw [hn]
    exact hm
  exact absurd (mem_shared_iff.1 hm) (Nat.not_lt.2 hle)

/-- Methods that are the only ones with their symbols have distinct symbols. -/
theorem nodup_map_ofName {methods part : List Method} (hsub : part.Sublist methods)
    (alone : ∀ m ∈ part, owners methods (ofName m.qualifiedName) = [m]) :
    (part.map fun m => ofName m.qualifiedName).Nodup := by
  refine List.nodup_iff_count_le_one.2 fun symbol => ?_
  by_cases hs : symbol ∈ part.map fun m => ofName m.qualifiedName
  · obtain ⟨m, hm, rfl⟩ := List.mem_map.1 hs
    calc (part.map fun m => ofName m.qualifiedName).count (ofName m.qualifiedName)
        ≤ (methods.map fun m => ofName m.qualifiedName).count (ofName m.qualifiedName) := (hsub.map _).count_le _
      _ = (owners methods (ofName m.qualifiedName)).length := by
          rw [← count_eq_owners, count, List.map_map]
          rfl
      _ = 1 := by rw [alone m hm, List.length_singleton]
  · rw [List.count_eq_zero_of_not_mem hs]
    exact Nat.zero_le 1

/-- A declared method whose symbol is not shared is the only one that has it. -/
theorem owners_eq_singleton_iff {methods : List Method} {m : Method} (hm : m ∈ methods) :
    owners methods (ofName m.qualifiedName) = [m] ↔
      ofName m.qualifiedName ∉ shared (methods.map (·.qualifiedName)) := by
  have hmem : m ∈ owners methods (ofName m.qualifiedName) := List.mem_filter.2 ⟨hm, by simp⟩
  rw [mem_shared_iff]
  constructor
  · intro h
    simp [h]
  · intro h
    obtain ⟨n, hn⟩ : ∃ n, owners methods (ofName m.qualifiedName) = [n] :=
      List.length_eq_one_iff.1 (by have := List.length_pos_of_mem hmem; omega)
    rw [hn, List.mem_singleton] at hmem
    rw [hn, hmem]

end JniSignatures.Symbol
