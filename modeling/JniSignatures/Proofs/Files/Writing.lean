import Mathlib
import JniSignatures.Files.Change
import JniSignatures.Keyed
import JniSignatures.Proofs.Files.Paths
/-!
# What a written file changes

A file that is written is then there, at the place of its text (`Tree.Writes.holds`), and nothing else
changes: the directories stay, every walk that led somewhere leads there again, and so every other file
is where it was (`Tree.Holds.write`).
-/

namespace JniSignatures.Files

/-- A text that reaches the system. -/
def Followable (text : String) : Prop :=
  '\x00' ∉ text.toList ∧ text ≠ "" ∧ text.utf8ByteSize < Tree.maxTextBytes

instance : DecidablePred Followable :=
  fun text => inferInstanceAs (Decidable ('\x00' ∉ text.toList ∧ text ≠ "" ∧
    text.utf8ByteSize < Tree.maxTextBytes))

namespace Tree

theorem following_eq_ok_iff {α : Type} {text : String} {outcome : Except Errno α} {result : α} :
    following text outcome = .ok result ↔ Followable text ∧ outcome = .ok result := by
  unfold following Followable
  split_ifs with hnull hempty hlong
  · exact iff_of_false nofun fun h => h.1.1 (List.contains_iff_mem.1 hnull)
  · exact iff_of_false nofun fun h => h.1.2.1 hempty
  · exact iff_of_false nofun fun h => absurd h.1.2.2 (by omega)
  · have hfollow : '\x00' ∉ text.toList ∧ text ≠ "" ∧ text.utf8ByteSize < maxTextBytes :=
      ⟨fun hm => hnull (List.contains_iff_mem.2 hm), hempty, by omega⟩
    cases outcome with
    | ok r => exact ⟨fun h => ⟨hfollow, by cases h; rfl⟩, fun h => by cases h.2; rfl⟩
    | error e => exact iff_of_false nofun fun h => absurd h.2 nofun

theorem following_of_null {α : Type} {text : String} {outcome : Except Errno α} (h : '\x00' ∈ text.toList) :
    following text outcome = .error .nullCharacter := by
  unfold following
  rw [if_pos (List.contains_iff_mem.2 h)]

theorem refused_of_following {α : Type} {text : String} {outcome : Except Errno α} {fault : Fault}
    (h : '\x00' ∉ text.toList) (hf : following text outcome = .error fault) : ∃ errno, fault = .refused errno text := by
  unfold following at hf
  split_ifs at hf with hnull
  · exact absurd (List.contains_iff_mem.1 hnull) h
  · cases hf
    exact ⟨_, rfl⟩
  · cases hf
    exact ⟨_, rfl⟩
  · cases outcome with
    | ok result => cases hf
    | error errno =>
      cases hf
      exact ⟨_, rfl⟩

/-! ## Nodes -/

section Nodes

variable {t : Tree} {place other : Location} {node : Node}

theorem node?_of_above_home (h : place.isPrefixOf t.home) : t.node? place = some .directory :=
  if_pos h

/-- A place where no directory is can take another node. -/
theorem node?_insert_self (h : t.node? place ≠ some .directory) (node : Node) :
    (t.insert place node).node? place = some node := by
  have hp : place.isPrefixOf t.home = false := by
    rw [Bool.eq_false_iff]
    exact fun hp => h (node?_of_above_home hp)
  simp only [node?, insert, hp, Bool.false_eq_true, if_false, Keyed.lookup_insert_self]

theorem node?_insert_of_ne (h : other ≠ place) : (t.insert place node).node? other = t.node? other := by
  simp only [node?, insert, Keyed.lookup_insert_of_ne h]

end Nodes

/-! ## Walks -/

section Walks

variable {t : Tree} {place start goal : Location}

theorem walk_append (t : Tree) (start : Location) (first rest : List String) :
    t.walk start (first ++ rest) = (t.walk start first).bind (t.walk · rest) := by
  induction first generalizing start with
  | nil => rfl
  | cons step first ih =>
    rw [List.cons_append, walk, walk]
    cases t.node? start with
    | none => rfl
    | some node =>
      cases node with
      | file content executable => rfl
      | directory =>
        simp only
        split_ifs
        · exact ih start
        · exact ih start.dropLast
        · rfl
        · rfl
        · exact ih (start ++ [step])

/-- What is put where no directory is does not stop a walk. -/
theorem walk_insert (h : t.node? place ≠ some .directory) {steps : List String} (hw : t.walk start steps = .ok goal)
    (node : Node) : (t.insert place node).walk start steps = .ok goal := by
  induction steps generalizing start with
  | nil => exact hw
  | cons step steps ih =>
    rw [walk] at hw ⊢
    cases hn : t.node? start with
    | none => rw [hn] at hw; cases hw
    | some found =>
      cases found with
      | file c e => rw [hn] at hw; cases hw
      | directory =>
        -- The walk passes directories, and at `place` there is none.
        have hne : start ≠ place := fun he => h (he ▸ hn)
        rw [node?_insert_of_ne hne, hn]
        rw [hn] at hw
        simp only at hw ⊢
        split_ifs at hw with h1 h2 h3 h4
        · rw [if_pos h1]
          exact ih hw
        · rw [if_neg h1, if_pos h2]
          exact ih hw
        · have hsome : ¬ ((t.insert place node).node? (start ++ [step])).isNone := by
            by_cases he : start ++ [step] = place
            · rw [he, node?_insert_self h]
              exact Bool.false_ne_true
            · rw [node?_insert_of_ne he]
              exact h4
          rw [if_neg h1, if_neg h2, if_neg h3, if_neg hsome]
          exact ih hw

end Walks

/-! ## Writing -/

/-- How a file is written: all steps of its text but the last one lead to a directory, and there is no
directory where the last one leads. -/
structure Writes (t : Tree) (text : String) (init : List String) (last : String) (above : Location) : Prop where
  followable : Followable text
  steps : steps text = init ++ [last]
  walk : t.walk (t.start text) init = .ok above
  directory : t.node? above = some .directory
  plain : last ≠ "." ∧ last ≠ ".."
  short : last.utf8ByteSize ≤ maxNameBytes
  free : t.node? (above ++ [last]) ≠ some .directory

/-- A text leads to a file with the given content at a place. -/
structure Holds (t : Tree) (text : String) (place : Location) (content : Content) : Prop where
  followable : Followable text
  walk : t.walk (t.start text) (steps text) = .ok place
  node : ∃ executable, t.node? place = some (.file content executable)

/-- A text leads to a directory at a place. -/
structure Enters (t : Tree) (text : String) (place : Location) : Prop where
  followable : Followable text
  walk : t.walk (t.start text) (steps text) = .ok place
  node : t.node? place = some .directory

section Writing

variable {t t' : Tree} {text other : String} {content other' : Content} {above place : Location}
  {init : List String} {last : String}

theorem slot_eq_ok {start : Location} {steps : List String} {taken : Errno}
    (h : t.slot start steps taken = .ok place) : ∃ init last above, steps = init ++ [last] ∧
      t.walk start init = .ok above ∧ t.node? above = some .directory ∧ (last ≠ "." ∧ last ≠ "..") ∧
      last.utf8ByteSize ≤ maxNameBytes ∧ place = above ++ [last] := by
  unfold slot walkDirectory at h
  cases hw : t.walk start steps.dropLast with
  | error e => rw [hw] at h; cases h
  | ok above =>
    simp only [hw] at h
    cases hn : t.node? above with
    | none => rw [hn] at h; cases h
    | some node =>
      cases node with
      | file c e => rw [hn] at h; cases h
      | directory =>
        cases hl : steps.getLast? with
        | none => rw [hn, hl] at h; cases h
        | some last =>
          simp only [hn, hl] at h
          split_ifs at h with hdot hlong
          obtain ⟨front, hfront⟩ := List.getLast?_eq_some_iff.1 hl
          subst hfront
          rw [List.dropLast_concat] at hw
          exact ⟨front, last, above, rfl, hw, hn, not_or.1 hdot, by omega, (Except.ok.inj h).symm⟩

theorem putFile_eq_ok (h : t.putFile content place = .ok t') : t.node? place ≠ some .directory ∧
    ∃ executable, t' = t.insert place (.file content executable) := by
  unfold putFile at h
  split at h
  · cases h
  · rename_i c executable hn
    exact ⟨by simp [hn], executable, (Except.ok.inj h).symm⟩
  · rename_i hn
    exact ⟨by simp [hn], false, (Except.ok.inj h).symm⟩

theorem writes_of_write (h : t.write text content = .ok t') : ∃ init last above executable,
    Writes t text init last above ∧ t' = t.insert (above ++ [last]) (.file content executable) := by
  obtain ⟨followable, h⟩ := following_eq_ok_iff.1 h
  cases hs : t.slot (t.start text) (steps text) .isDirectory with
  | error e => rw [hs] at h; cases h
  | ok place =>
    rw [hs] at h
    obtain ⟨init, last, above, hsteps, hw, hn, hplain, hshort, rfl⟩ := slot_eq_ok hs
    obtain ⟨hfree, executable, ht⟩ := putFile_eq_ok h
    exact ⟨init, last, above, executable, ⟨followable, hsteps, hw, hn, hplain, hshort, hfree⟩, ht⟩

theorem walk_step {start : Location} {step : String} (hd : t.node? start = some .directory)
    (hplain : step ≠ "." ∧ step ≠ "..") (hshort : step.utf8ByteSize ≤ maxNameBytes)
    (hn : (t.node? (start ++ [step])).isSome) : t.walk start [step] = .ok (start ++ [step]) := by
  have hsome : ¬ (t.node? (start ++ [step])).isNone := by
    rw [Option.isNone_eq_false_iff.2 hn]
    exact Bool.false_ne_true
  simp only [walk, hd, if_neg hplain.1, if_neg hplain.2, if_neg (Nat.not_lt.2 hshort), if_neg hsome]

/-- The file is there after it has been written. -/
theorem Writes.holds (h : Writes t text init last above) (content : Content) (executable : Bool) :
    Holds (t.insert (above ++ [last]) (.file content executable)) text (above ++ [last]) content := by
  have hself := node?_insert_self h.free (.file content executable)
  refine ⟨h.followable, ?_, executable, hself⟩
  have hne : above ≠ above ++ [last] := fun he => by simpa using congrArg List.length he
  rw [h.steps, walk_append]
  rw [show (t.insert (above ++ [last]) (.file content executable)).start text = t.start text from rfl]
  rw [walk_insert h.free h.walk]
  refine walk_step ?_ h.plain h.short (by rw [hself]; rfl)
  rw [node?_insert_of_ne hne, h.directory]

theorem holds_of_write (h : t.write text content = .ok t') :
    ∃ place, Holds t' text place content ∧ place.getLast? = (steps text).getLast? := by
  obtain ⟨init, last, above, executable, hw, rfl⟩ := writes_of_write h
  exact ⟨above ++ [last], hw.holds content executable, by rw [hw.steps, List.getLast?_concat, List.getLast?_concat]⟩

/-- A file that is written over another one takes its place, and otherwise leaves it as it was. -/
theorem Holds.write (h : Holds t text place content) (hw : t.write other other' = .ok t') :
    Holds t' text place content ∨ Holds t' text place other' ∧ place.getLast? = (steps other).getLast? := by
  obtain ⟨init, last, above, executable, hwrites, rfl⟩ := writes_of_write hw
  have hwalk := walk_insert hwrites.free h.walk (.file other' executable)
  by_cases hne : place = above ++ [last]
  · refine .inr ⟨⟨h.followable, hwalk, executable, ?_⟩, ?_⟩
    · rw [hne, node?_insert_self hwrites.free]
    · rw [hne, hwrites.steps, List.getLast?_concat, List.getLast?_concat]
  · obtain ⟨e, he⟩ := h.node
    exact .inl ⟨h.followable, hwalk, e, by rw [node?_insert_of_ne hne, he]⟩

theorem Holds.write_of_ne (h : Holds t text place content) (hw : t.write other other' = .ok t')
    (hne : place.getLast? ≠ (steps other).getLast?) : Holds t' text place content :=
  (h.write hw).resolve_right fun hsame => hne hsame.2

end Writing

/-! ## Questions -/

section Questions

variable {t : Tree} {text : String} {place : Location} {content : Content}

theorem Holds.find (h : Holds t text place content) : ∃ executable, t.find text = .ok (.file content executable) := by
  obtain ⟨executable, hn⟩ := h.node
  have hl : t.locate text = .ok place := following_eq_ok_iff.2 ⟨h.followable, h.walk⟩
  exact ⟨executable, by rw [Tree.find, hl]; simp [hn]⟩

theorem Holds.probe (h : Holds t text place content) :
    ∃ executable, t.probe text = .ok (some (.file content executable)) := by
  obtain ⟨executable, hf⟩ := h.find
  exact ⟨executable, by rw [Tree.probe, hf]⟩

theorem Holds.read (h : Holds t text place content) : t.read text = .ok content := by
  obtain ⟨executable, hf⟩ := h.find
  rw [Tree.read, hf]

theorem Holds.probeFile {p : Path} (h : Holds t p.text place content) : t.probeFile p = .ok true := by
  obtain ⟨executable, hp⟩ := h.probe
  rw [Tree.probeFile, hp]

/-- What leads to a file leads to a place that holds it. -/
theorem holds_of_find {executable : Bool} (h : t.find text = .ok (.file content executable)) :
    ∃ place, Holds t text place content := by
  unfold Tree.find at h
  cases hl : t.locate text with
  | error fault =>
    rw [hl] at h
    cases h
  | ok place =>
    rw [hl] at h
    obtain ⟨hfollow, hwalk⟩ := following_eq_ok_iff.1 hl
    refine ⟨place, hfollow, hwalk, executable, ?_⟩
    cases hn : t.node? place with
    | none =>
      simp only [hn] at h
      cases h
    | some node =>
      simp only [hn] at h
      cases h
      rfl

theorem holds_of_read (h : t.read text = .ok content) : ∃ place, Holds t text place content := by
  unfold Tree.read at h
  cases hf : t.find text with
  | error fault =>
    rw [hf] at h
    cases h
  | ok node =>
    rw [hf] at h
    cases node with
    | directory => cases h
    | file found executable =>
      cases h
      exact holds_of_find hf

theorem read_of_null (h : '\x00' ∈ text.toList) : t.read text = .error .nullCharacter := by
  have hlocate : t.locate text = .error .nullCharacter := following_of_null h
  rw [Tree.read, Tree.find, hlocate]

/-- A text without a null character reaches the system, and only that refuses to read a file. -/
theorem refused_of_read {fault : Fault} (h : '\x00' ∉ text.toList) (hf : t.read text = .error fault) :
    ∃ errno, fault = .refused errno text := by
  unfold Tree.read Tree.find at hf
  cases hl : t.locate text with
  | error cause =>
    rw [hl] at hf
    cases hf
    exact refused_of_following h hl
  | ok place =>
    rw [hl] at hf
    cases hn : t.node? place with
    | none =>
      simp only [hn] at hf
      cases hf
      exact ⟨_, rfl⟩
    | some node =>
      simp only [hn] at hf
      cases node with
      | directory =>
        cases hf
        exact ⟨_, rfl⟩
      | file content executable => cases hf

theorem holds_of_probeFile {p : Path} (h : t.probeFile p = .ok true) : ∃ place content, Holds t p.text place content := by
  unfold Tree.probeFile Tree.probe at h
  cases hf : t.find p.text with
  | error fault =>
    rw [hf] at h
    cases fault with
    | nullCharacter => cases h
    | refused errno text => cases errno <;> cases h
  | ok node =>
    rw [hf] at h
    cases node with
    | directory => cases h
    | file content executable =>
      obtain ⟨place, hplace⟩ := holds_of_find hf
      exact ⟨place, content, hplace⟩

theorem Enters.probeDirectory {p : Path} (h : Enters t p.text place) : t.probeDirectory p = .ok true := by
  have hl : t.locate p.text = .ok place := following_eq_ok_iff.2 ⟨h.followable, h.walk⟩
  rw [Tree.probeDirectory, Tree.probe, Tree.find, hl]
  simp [h.node]

theorem walk_eq_ok_cons {start : Location} {step : String} {rest : List String}
    (h : t.walk start (step :: rest) = .ok place) : t.node? start = some .directory := by
  rw [walk] at h
  cases hn : t.node? start with
  | none => rw [hn] at h; cases h
  | some node =>
    cases node with
    | file c e => rw [hn] at h; cases h
    | directory => rfl

/-- The text of a path above another one is short enough if that one's is. -/
theorem followable_above {p : Path} {rest : List String} (hp : p.WellFormed) (hrest : rest ≠ [])
    (h : Followable (Path.text { p with parts := p.parts ++ rest })) : Followable p.text := by
  by_cases hparts : p.parts = []
  · rcases hp.eq_of_nil hparts with rfl | rfl | rfl
    · decide
    · decide
    · decide
  · obtain ⟨hnull, -, hsize⟩ := h
    rw [text_below hparts hrest] at hnull hsize
    have hnonempty : p.text ≠ "" := by
      intro hempty
      have hsteps := steps_text hp hparts
      rw [hempty] at hsteps
      exact hparts hsteps.symm
    refine ⟨fun hm => hnull ?_, hnonempty, ?_⟩
    · simp [hm]
    · simp only [String.utf8ByteSize_append] at hsize
      omega

/-- A path above that of a file leads to a directory. -/
theorem Holds.enters {p : Path} {rest : List String}
    (h : Holds t (Path.text { p with parts := p.parts ++ rest }) place content) (hp : p.WellFormed)
    (hbelow : Path.WellFormed { p with parts := p.parts ++ rest }) (hrest : rest ≠ []) :
    ∃ above, Enters t p.text above := by
  have hwalk := h.walk
  rw [steps_text hbelow (by simp [hrest]), walk_append] at hwalk
  -- Both texts start with the same slashes, so the walks start at one place.
  have hstart : t.start (Path.text { p with parts := p.parts ++ rest }) = t.start p.text := by
    rw [start, start, isAbsolute_text hbelow, isAbsolute_text hp]
  rw [hstart] at hwalk
  cases hw : t.walk (t.start p.text) p.parts with
  | error e => rw [hw] at hwalk; cases hwalk
  | ok above =>
    rw [hw] at hwalk
    obtain ⟨step, rest, rfl⟩ := List.exists_cons_of_ne_nil hrest
    have hdirectory : t.node? above = some .directory := walk_eq_ok_cons hwalk
    refine ⟨above, followable_above hp hrest h.followable, ?_, hdirectory⟩
    by_cases hparts : p.parts = []
    · rw [hparts] at hw
      cases hw
      rw [steps_text_of_nil hp hparts, Tree.walk, hdirectory]
      rfl
    · rw [steps_text hp hparts, hw]

end Questions

end Tree

end JniSignatures.Files
