import Mathlib
import JniSignatures.Proofs.Files.Gains
/-!
# What is left as it was

Making directories leaves everything else as it was (`Tree.Widens`): every node stays, every walk that led
somewhere leads there again, and to each new node, which is a directory, leads one of the texts. So it is if
a file is written after that, except for the file at the place of its text (`Tree.Adds`).
-/

namespace JniSignatures.Files

namespace Tree

/-- All that is new are directories, and one of the texts leads to each. -/
structure Widens (texts : List String) (t t' : Tree) : Prop where
  home : t'.home = t.home
  walks : ∀ start steps goal, t.walk start steps = .ok goal → t'.walk start steps = .ok goal
  nodes : ∀ place, t'.node? place = t.node? place ∨
    t.node? place = none ∧ t'.node? place = some .directory ∧ ∃ text ∈ texts, t'.locate text = .ok place

/-- All that is new or changed are directories, to each of which one of the texts leads, and the file to which
another text leads, which has the content. -/
structure Adds (texts : List String) (file : String) (content : Content) (t t' : Tree) : Prop where
  home : t'.home = t.home
  nodes : ∀ place, t'.node? place = t.node? place ∨
    (t.node? place = none ∧ t'.node? place = some .directory ∧ ∃ text ∈ texts, t'.locate text = .ok place) ∨
    t.node? place ≠ some .directory ∧ (∃ executable, t'.node? place = some (.file content executable)) ∧
      t'.locate file = .ok place ∧ place.getLast? = (steps file).getLast?

section Widening

variable {texts : List String} {t t' : Tree} {text : String} {place : Location}

theorem Widens.locate (h : Widens texts t t') (hl : t.locate text = .ok place) : t'.locate text = .ok place := by
  obtain ⟨hfollow, hwalk⟩ := following_eq_ok_iff.1 hl
  apply following_eq_ok_iff.2
  refine ⟨hfollow, ?_⟩
  have hstart : t'.start text = t.start text := by rw [start, start, h.home]
  rw [hstart]
  exact h.walks _ _ _ hwalk

instance : IsPreorder Tree (Widens texts) where
  refl t := ⟨rfl, fun _ _ _ h => h, fun _ => .inl rfl⟩
  trans a b c h h' := by
    refine ⟨h'.home.trans h.home, fun start steps goal hw => h'.walks _ _ _ (h.walks _ _ _ hw), ?_⟩
    intro place
    rcases h'.nodes place with hsame | ⟨hnone, hnew⟩
    · rcases h.nodes place with hsame' | ⟨hnone, hdirectory, text, hm, hl⟩
      · exact .inl (hsame.trans hsame')
      · exact .inr ⟨hnone, hsame.trans hdirectory, text, hm, h'.locate hl⟩
    · rcases h.nodes place with hsame' | ⟨-, hdirectory, -⟩
      · exact .inr ⟨hsame'.symm.trans hnone, hnew⟩
      · rw [hnone] at hdirectory
        cases hdirectory

/-- A directory that is made is where its text leads. -/
theorem locate_of_makeDirectory (h : t.makeDirectory text = .ok t') : ∃ place,
    t.node? place = none ∧ t' = t.insert place .directory ∧ t'.locate text = .ok place := by
  obtain ⟨hfollow, h⟩ := following_eq_ok_iff.1 h
  cases hs : t.slot (t.start text) ((names text).filter (· ≠ "")) .exists with
  | error errno => rw [hs] at h; cases h
  | ok place =>
    rw [hs] at h
    obtain ⟨init, last, above, hsteps, hwalk, habove, hplain, hshort, rfl⟩ := slot_eq_ok hs
    have hadd : t.addDirectory (above ++ [last]) = .ok t' := h
    unfold addDirectory at hadd
    split at hadd
    · cases hadd
    rename_i hnone
    obtain rfl : t.insert (above ++ [last]) .directory = t' := Except.ok.inj hadd
    have hfree : t.node? (above ++ [last]) ≠ some .directory := by simp [hnone]
    have hself := node?_insert_self hfree .directory
    have hne : above ≠ above ++ [last] := fun he => by simpa using congrArg List.length he
    -- The walk that found the slot goes on into the new directory.
    have hinto : (t.insert (above ++ [last]) .directory).walk (t.start text) ((names text).filter (· ≠ "")) =
        .ok (above ++ [last]) := by
      rw [hsteps, walk_append, walk_insert hfree hwalk]
      apply walk_step _ hplain hshort
      · rw [hself]
        rfl
      · rw [node?_insert_of_ne hne, habove]
    refine ⟨above ++ [last], hnone, rfl, following_eq_ok_iff.2 ⟨hfollow, ?_⟩⟩
    show Tree.walk _ (t.start text) (steps text) = _
    unfold steps
    dsimp only
    split_ifs
    · rw [walk_append, hinto]
      simp [Except.bind, walk, hself]
    · exact hinto

theorem widens_of_makeDirectory (hm : text ∈ texts) (h : t.makeDirectory text = .ok t') : Widens texts t t' := by
  obtain ⟨made, hnone, rfl, hl⟩ := locate_of_makeDirectory h
  have hfree : t.node? made ≠ some .directory := by simp [hnone]
  refine ⟨rfl, fun start steps goal hw => walk_insert hfree hw _, ?_⟩
  intro place
  by_cases hp : place = made
  · subst hp
    exact .inr ⟨hnone, node?_insert_self hfree _, text, hm, hl⟩
  · exact .inl (node?_insert_of_ne hp)

theorem Widens.adds (h : Widens texts t t') (file : String) (content : Content) : Adds texts file content t t' := by
  refine ⟨h.home, fun place => ?_⟩
  rcases h.nodes place with hsame | hnew
  · exact .inl hsame
  · exact .inr (.inl hnew)

/-- A file is written into a tree that may have more directories. -/
theorem Widens.write {t'' : Tree} {file : String} {content : Content} (h : Widens texts t t')
    (hw : t'.write file content = .ok t'') : Adds texts file content t t'' := by
  obtain ⟨init, last, above, executable, hwrites, rfl⟩ := writes_of_write hw
  have hholds := hwrites.holds content executable
  refine ⟨h.home, fun place => ?_⟩
  by_cases hp : place = above ++ [last]
  · subst hp
    refine .inr (.inr ⟨?_, hholds.node, following_eq_ok_iff.2 ⟨hholds.followable, hholds.walk⟩, ?_⟩)
    · intro hdirectory
      apply hwrites.free
      rcases h.nodes (above ++ [last]) with hsame | ⟨hnone, -⟩
      · rw [hsame, hdirectory]
      · rw [hdirectory] at hnone
        cases hnone
    · rw [hwrites.steps, List.getLast?_concat, List.getLast?_concat]
  · rw [node?_insert_of_ne hp]
    rcases h.nodes place with hsame | ⟨hnone, hdirectory, text, hm, hl⟩
    · exact .inl hsame
    · refine .inr (.inl ⟨hnone, hdirectory, text, hm, ?_⟩)
      obtain ⟨hfollow, hwalk⟩ := following_eq_ok_iff.1 hl
      exact following_eq_ok_iff.2 ⟨hfollow, walk_insert hwrites.free hwalk _⟩

end Widening

end Tree

namespace FileM

theorem makeDirectories_widens (text : String) : Moves (Tree.Widens (textsAbove text ++ [text])) (makeDirectories text) := by
  apply makeDirectories_moves
  intro made hm t t' h
  exact Tree.widens_of_makeDirectory hm h

end FileM

end JniSignatures.Files
