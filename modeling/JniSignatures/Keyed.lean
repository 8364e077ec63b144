/-!
# Keyed lists

A list of pairs serves as a map that remembers the order in which its keys came. Setting a key that
is there changes its value and not its place; a new key goes to the end.
-/

namespace JniSignatures.Keyed

variable {κ α : Type} [DecidableEq κ]

/-- Sets the value of a key. -/
def insert (key : κ) (value : α) : List (κ × α) → List (κ × α)
  | [] => [(key, value)]
  | (k, v) :: rest => if k = key then (k, value) :: rest else (k, v) :: insert key value rest

/-- A new key goes to the end. -/
theorem insert_of_notMem {key : κ} {entries : List (κ × α)} (h : key ∉ entries.map Prod.fst) (value : α) :
    insert key value entries = entries ++ [(key, value)] := by
  induction entries with
  | nil => rfl
  | cons entry rest ih =>
    obtain ⟨k, v⟩ := entry
    rw [List.map_cons, List.mem_cons, not_or] at h
    rw [insert, if_neg (Ne.symm h.1), ih h.2]
    rfl

/-- A key that is there keeps its place. -/
theorem map_fst_insert_of_mem {key : κ} {entries : List (κ × α)} (h : key ∈ entries.map Prod.fst) (value : α) :
    (insert key value entries).map Prod.fst = entries.map Prod.fst := by
  induction entries with
  | nil => cases h
  | cons entry rest ih =>
    obtain ⟨k, v⟩ := entry
    by_cases hk : k = key
    · rw [insert, if_pos hk]
      rfl
    · rw [insert, if_neg hk, List.map_cons, List.map_cons, ih ((List.mem_cons.1 h).resolve_left (Ne.symm hk))]

/-- After a key is set, the entries are that one and some of those before. -/
theorem mem_insert {key : κ} {value : α} {entries : List (κ × α)} {entry : κ × α}
    (h : entry ∈ insert key value entries) : entry = (key, value) ∨ entry ∈ entries := by
  induction entries with
  | nil => exact .inl (List.mem_singleton.1 h)
  | cons first rest ih =>
    obtain ⟨k, v⟩ := first
    rw [insert] at h
    split at h
    · rename_i hk
      rcases List.mem_cons.1 h with rfl | hm
      · exact .inl (by rw [hk])
      · exact .inr (List.mem_cons_of_mem _ hm)
    · rcases List.mem_cons.1 h with rfl | hm
      · exact .inr List.mem_cons_self
      · exact (ih hm).imp_right (List.mem_cons_of_mem _)

variable [BEq κ] [LawfulBEq κ]

@[simp]
theorem lookup_insert_self (key : κ) (value : α) (entries : List (κ × α)) :
    (insert key value entries).lookup key = some value := by
  induction entries with
  | nil => exact List.lookup_cons_self
  | cons entry rest ih =>
    obtain ⟨k, v⟩ := entry
    by_cases h : k = key
    · rw [insert, if_pos h, h]
      exact List.lookup_cons_self
    · have hne : (key == k) = false := beq_eq_false_iff_ne.2 (Ne.symm h)
      rw [insert, if_neg h, List.lookup_cons, hne]
      exact ih

theorem lookup_insert_of_ne {key other : κ} (h : other ≠ key) (value : α) (entries : List (κ × α)) :
    (insert key value entries).lookup other = entries.lookup other := by
  have hne : (other == key) = false := beq_eq_false_iff_ne.2 h
  induction entries with
  | nil => rw [insert, List.lookup_cons, hne]
  | cons entry rest ih =>
    obtain ⟨k, v⟩ := entry
    by_cases hk : k = key
    · rw [insert, if_pos hk, List.lookup_cons, List.lookup_cons, hk, hne]
    · rw [insert, if_neg hk, List.lookup_cons, List.lookup_cons, ih]

omit [DecidableEq κ] in
/-- In entries that have each key once, every entry is the one of its key. -/
theorem lookup_of_mem {entries : List (κ × α)} (hn : (entries.map Prod.fst).Nodup) {key : κ} {value : α}
    (h : (key, value) ∈ entries) : entries.lookup key = some value := by
  induction entries with
  | nil => cases h
  | cons entry rest ih =>
    obtain ⟨k, v⟩ := entry
    rw [List.map_cons, List.nodup_cons] at hn
    rcases List.mem_cons.1 h with heq | hrest
    · cases heq
      exact List.lookup_cons_self
    · have hkey : key ∈ rest.map Prod.fst := List.mem_map_of_mem hrest
      have hne : (key == k) = false := beq_eq_false_iff_ne.2 fun heq => hn.1 (heq ▸ hkey)
      rw [List.lookup_cons, hne]
      exact ih hn.2 hrest

end JniSignatures.Keyed
