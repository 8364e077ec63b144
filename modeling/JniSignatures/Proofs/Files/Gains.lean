import Mathlib
import JniSignatures.Proofs.Files.Places
import JniSignatures.Proofs.Running
/-!
# Which files can turn up

Several changes in a row are judged by the files that were not there before: each must be one that may be
there (`Tree.Gains`). Making directories adds no file at all, and writing adds files with the last name of
its text only. What makes directories does nothing else, so it keeps to every relation to which making each
one of them keeps.

Changes are also judged by what has become of each file, be it new, changed or gone (`Tree.Alters`). Making
directories alters no file, and writing and removing alter the files with the last name of their text only.
-/

namespace JniSignatures.Files

namespace Tree

/-- Every file that one tree has and the other has not, at a place and with a content, may be there. -/
def Gains (may : Location → Content → Prop) (t t' : Tree) : Prop :=
  ∀ place content executable, t'.node? place = some (.file content executable) →
    t.node? place = some (.file content executable) ∨ may place content

section Gains

variable {may : Location → Content → Prop} {t t' : Tree} {text : String} {content : Content}

instance : IsPreorder Tree (Gains may) where
  refl _ _ _ _ h := .inl h
  trans _ _ _ h h' place content executable hn := by
    rcases h' place content executable hn with hn | hmay
    · exact h place content executable hn
    · exact .inr hmay

end Gains

/-! ## What becomes of files -/

/-- Every file that is new, changed or gone, at a place and with the content that it has then, may be so. -/
def Alters (may : Location → Option Content → Prop) (t t' : Tree) : Prop :=
  ∀ place, t'.content? place = t.content? place ∨ may place (t'.content? place)

section Alters

variable {may : Location → Option Content → Prop} {t t' : Tree} {text : String} {content : Content}

instance : IsPreorder Tree (Alters may) where
  refl _ _ := .inl rfl
  trans _ _ _ h h' place := by
    rcases h' place with hsame | hmay
    · rw [hsame]
      exact h place
    · exact .inr hmay

theorem Alters.mono {may' : Location → Option Content → Prop} (h : Alters may t t')
    (hmay : ∀ place content, may place content → may' place content) : Alters may' t t' :=
  fun place => (h place).imp_right (hmay place _)

theorem content?_congr {place : Location} (h : t'.node? place = t.node? place) : t'.content? place = t.content? place := by
  rw [content?, content?, h]

theorem alters_of_makeDirectory (h : t.makeDirectory text = .ok t') : Alters may t t' := by
  obtain ⟨above, last, -, hfree, rfl⟩ := makeDirectory_eq_ok h
  intro place
  by_cases hp : place = above ++ [last]
  · rw [hp, content?, content?, node?_insert_self (by simp [hfree]), hfree]
    exact .inl rfl
  · exact .inl (content?_congr (node?_insert_of_ne hp))

theorem alters_of_write
    (hmay : ∀ place : Location, place.getLast? = (steps text).getLast? → may place (some content))
    (h : t.write text content = .ok t') : Alters may t t' := by
  obtain ⟨init, last, above, executable, hw, rfl⟩ := writes_of_write h
  intro place
  by_cases hp : place = above ++ [last]
  · have hcontent : (t.insert (above ++ [last]) (.file content executable)).content? (above ++ [last]) = some content := by
      rw [content?, node?_insert_self hw.free]
    rw [hp, hcontent]
    exact .inr (hmay _ (by rw [hw.steps, List.getLast?_concat, List.getLast?_concat]))
  · exact .inl (content?_congr (node?_insert_of_ne hp))

/-- A walk whose last step leads down arrives at a place with that name. -/
theorem getLast?_of_walk {start place : Location} {steps : List String} {last : String}
    (hlast : steps.getLast? = some last) (hplain : last ≠ "." ∧ last ≠ "..") (h : t.walk start steps = .ok place) :
    place.getLast? = some last := by
  obtain ⟨init, rfl⟩ := List.getLast?_eq_some_iff.1 hlast
  rw [walk_append] at h
  cases hw : t.walk start init with
  | error errno =>
    rw [hw] at h
    cases h
  | ok above =>
    rw [hw] at h
    have hinto : t.walk above [last] = .ok place := h
    rw [walk, walk_eq_ok_cons hinto] at hinto
    dsimp only at hinto
    rw [if_neg hplain.1, if_neg hplain.2] at hinto
    split_ifs at hinto
    cases hinto
    rw [List.getLast?_concat]

/-- A file stays as it is when one with another name is written. -/
theorem Holds.write_beside {place : Location} {other name : String} {other' : Content} (h : Holds t text place content)
    (hw : t.write other other' = .ok t') (hlast : (steps text).getLast? = some name)
    (hplain : name ≠ "." ∧ name ≠ "..") (hother : (steps other).getLast? ≠ some name) : Holds t' text place content := by
  refine h.write_of_ne hw ?_
  rw [getLast?_of_walk hlast hplain h.walk]
  exact hother.symm

theorem alters_of_remove {name : String} (hlast : (steps text).getLast? = some name) (hplain : name ≠ "." ∧ name ≠ "..")
    (hmay : ∀ place : Location, place.getLast? = some name → may place none) (h : t.remove text = .ok t') :
    Alters may t t' := by
  obtain ⟨gone, hwalk, hfile, rfl⟩ := remove_eq_ok h
  intro place
  by_cases hp : place = gone
  · have hcontent : (t.erase gone).content? gone = none := by
      rw [content?, node?_erase_self hfile]
    rw [hp, hcontent]
    exact .inr (hmay _ (getLast?_of_walk hlast hplain hwalk))
  · exact .inl (content?_congr (node?_erase_of_ne hp))

end Alters

end Tree

/-! ## Making directories -/

namespace FileM

theorem exec_change (step : Tree → Except Fault Tree) (t : Tree) : exec (change step) t = match step t with
    | .ok next => (.ok (), next)
    | .error fault => (.error fault, t) := by
  have hget : exec (change step) t = exec (match step t with
      | .ok next => (set next : FileM Unit)
      | .error fault => throw fault) t := rfl
  rw [hget]
  cases step t with
  | ok next => rfl
  | error fault => rfl

variable {R : Tree → Tree → Prop}

theorem change_moves [IsPreorder Tree R] {step : Tree → Except Fault Tree}
    (h : ∀ t t', step t = .ok t' → R t t') : Moves R (change step) := by
  intro t
  rw [exec_change]
  cases hs : step t with
  | ok t' => exact h t t' hs
  | error fault => exact refl t

variable [IsPreorder Tree R]

theorem ensureDirectory_moves {text : String} (h : ∀ t t', Tree.makeDirectory t text = .ok t' → R t t') :
    Moves R (ensureDirectory text) := by
  refine Moves.tryCatch (change_moves h) fun fault => Moves.get_bind fun t => ?_
  split_ifs
  · exact Moves.pure () t
  · exact Moves.throw fault t

theorem makeMissing_moves {texts : List String}
    (h : ∀ text ∈ texts, ∀ t t', Tree.makeDirectory t text = .ok t' → R t t') : Moves R (makeMissing texts) := by
  induction texts with
  | nil => exact Moves.pure ()
  | cons text rest ih =>
    obtain ⟨htext, hrest⟩ := List.forall_mem_cons.1 h
    refine Moves.get_bind fun t => ?_
    split_ifs
    · exact Moves.bind (Moves.pure ()) (fun _ => ih hrest) t
    · exact Moves.bind (ensureDirectory_moves htext) (fun _ => ih hrest) t

theorem makeDirectories_moves {text : String}
    (h : ∀ made ∈ textsAbove text ++ [text], ∀ t t', Tree.makeDirectory t made = .ok t' → R t t') :
    Moves R (makeDirectories text) := by
  obtain ⟨habove, htext⟩ := List.forall_mem_append.1 h
  exact Moves.bind (makeMissing_moves habove) fun _ => ensureDirectory_moves (htext text (List.mem_singleton_self _))

theorem makePath_moves {texts : List String}
    (h : ∀ text ∈ texts, ∀ t t', Tree.makeDirectory t text = .ok t' → R t t') : Moves R (makePath texts) := by
  induction texts with
  | nil => exact Moves.pure ()
  | cons text above ih =>
    obtain ⟨htext, habove⟩ := List.forall_mem_cons.1 h
    refine Moves.tryCatch (change_moves htext) fun fault => ?_
    split_ifs
    · exact Moves.bind (ih habove) fun _ => ensureDirectory_moves htext
    · refine Moves.get_bind fun t => ?_
      split_ifs
      · exact Moves.pure () t
      · exact Moves.throw fault t

end FileM

end JniSignatures.Files
