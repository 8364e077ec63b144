import Mathlib
import JniSignatures.Proofs.Files.Footprint
import JniSignatures.Proofs.Files.Ways
/-!
# Making directories for a file

A file can be written under a text, at most after more directories have been made (`Tree.Creatable`). Making
the directory of the file and those above it makes no more than is needed for that: going down the names of
the directory, each is there already or nothing is there (`Tree.Within.step`), so each can be entered, and in
the end the file can be written (`FileM.exec_makeDirectories_of_creatable`).
-/

namespace JniSignatures.Files

namespace Tree

/-! ## More directories -/

/-- A tree has all that another one has, and besides that at most directories. -/
structure Within (t t' : Tree) : Prop where
  home : t'.home = t.home
  nodes : ∀ place, t'.node? place = t.node? place ∨ t.node? place = none ∧ t'.node? place = some .directory

/-- A file can be written under a text, at most after more directories have been made. -/
def Creatable (t : Tree) (text : String) : Prop :=
  ∃ t' content written, t.Within t' ∧ t'.write text content = .ok written

/-- A place and all above it are directories. -/
def Paved (t : Tree) (place : Location) : Prop :=
  ∀ above, above <+: place → t.node? above = some .directory

section Within

variable {t t' : Tree} {text name : String} {start above goal : Location}

theorem Widens.within {texts : List String} (h : Widens texts t t') : t.Within t' := by
  refine ⟨h.home, fun place => ?_⟩
  rcases h.nodes place with hsame | ⟨hnone, hdirectory, -⟩
  · exact .inl hsame
  · exact .inr ⟨hnone, hdirectory⟩

theorem Within.directory (h : t.Within t') {place : Location} (hd : t.node? place = some .directory) :
    t'.node? place = some .directory := by
  rcases h.nodes place with hsame | ⟨hnone, -⟩
  · rw [hsame, hd]
  · rw [hd] at hnone
    cases hnone

theorem Within.walk (h : t.Within t') {steps : List String} (hw : t.walk start steps = .ok goal) :
    t'.walk start steps = .ok goal := by
  induction steps generalizing start with
  | nil => exact hw
  | cons step steps ih =>
    have hd := walk_eq_ok_cons hw
    rw [Tree.walk, hd] at hw
    rw [Tree.walk, h.directory hd]
    dsimp only at hw ⊢
    split_ifs at hw with hdot hup hlong hnone
    · rw [if_pos hdot, ih hw]
    · rw [if_neg hdot, if_pos hup, ih hw]
    · have hsome : ¬ (t'.node? (start ++ [step])).isNone := by
        rcases h.nodes (start ++ [step]) with hsame | ⟨-, hdirectory⟩
        · rwa [hsame]
        · simp [hdirectory]
      rw [if_neg hdot, if_neg hup, if_neg hlong, if_neg hsome, ih hw]

theorem paved_start (t : Tree) (text : String) : t.Paved (t.start text) := by
  intro place hp
  apply node?_of_above_home
  rw [List.isPrefixOf_iff_prefix]
  unfold start at hp
  split_ifs at hp
  · rw [List.prefix_nil.1 hp]
    exact List.nil_prefix
  · exact hp

theorem Paved.concat (h : t.Paved above) (hd : t.node? (above ++ [name]) = some .directory) :
    t.Paved (above ++ [name]) := by
  intro place hp
  rcases List.prefix_concat_iff.1 hp with rfl | hp
  · exact hd
  · exact h place hp

/-- One step down a way that leads to directories when more of these are there: the step leads to a directory
already, or to a place for one where nothing is. -/
theorem Within.step (h : t.Within t') (hpaved : t.Paved above) (hw : t'.walk above [name] = .ok goal)
    (hd : t'.node? goal = some .directory) : t.walk above [name] = .ok goal ∧ t.Paved goal ∨
      (name ≠ "." ∧ name ≠ "..") ∧ name.utf8ByteSize ≤ maxNameBytes ∧ goal = above ++ [name] ∧ t.node? goal = none := by
  have habove := hpaved above (List.prefix_refl above)
  rw [Tree.walk, h.directory habove] at hw
  rw [Tree.walk, habove]
  dsimp only at hw ⊢
  split_ifs at hw with hdot hup hlong hnone
  · cases hw
    exact .inl ⟨if_pos hdot, hpaved⟩
  · cases hw
    refine .inl ⟨by rw [if_neg hdot, if_pos hup]; rfl, ?_⟩
    exact fun place hp => hpaved place (hp.trans (List.dropLast_prefix above))
  · cases hw
    rcases h.nodes (above ++ [name]) with hsame | ⟨hfree, -⟩
    · rw [hsame] at hnone hd
      refine .inl ⟨?_, hpaved.concat hd⟩
      rw [if_neg hdot, if_neg hup, if_neg hlong, if_neg hnone]
      rfl
    · exact .inr ⟨⟨hdot, hup⟩, Nat.not_lt.1 hlong, rfl, hfree⟩

theorem Within.insert (h : t.Within t') (hnone : t.node? goal = none) (hd : t'.node? goal = some .directory) :
    (t.insert goal .directory).Within t' := by
  refine ⟨h.home, fun place => ?_⟩
  by_cases hp : place = goal
  · subst hp
    rw [node?_insert_self (by simp [hnone]), hd]
    exact .inl rfl
  · rw [node?_insert_of_ne hp]
    exact h.nodes place

end Within

/-! ## Single changes -/

section Changes

variable {t : Tree} {text last : String} {init : List String} {above : Location}

/-- Where nothing is, a directory can be made in one that is there. -/
theorem makeDirectory_of_free (hfollow : Followable text) (hway : way text = init ++ [last])
    (hwalk : t.walk (t.start text) init = .ok above) (habove : t.node? above = some .directory)
    (hplain : last ≠ "." ∧ last ≠ "..") (hshort : last.utf8ByteSize ≤ maxNameBytes)
    (hnone : t.node? (above ++ [last]) = none) : t.makeDirectory text = .ok (t.insert (above ++ [last]) .directory) := by
  apply following_eq_ok_iff.2
  refine ⟨hfollow, ?_⟩
  have hslot : t.slot (t.start text) (init ++ [last]) .exists = .ok (above ++ [last]) := by
    simp [slot, walkDirectory, hwalk, habove, hplain, Nat.not_lt.2 hshort]
  rw [show (names text).filter (· ≠ "") = init ++ [last] from hway, hslot]
  simp [Except.bind, addDirectory, hnone]

/-- To a directory leads a text with its names, whether or not it ends in a slash. -/
theorem locate_directory {goal : Location} (hfollow : Followable text) (hwalk : t.walk (t.start text) (way text) = .ok goal)
    (hd : t.node? goal = some .directory) : t.locate text = .ok goal := by
  apply following_eq_ok_iff.2
  refine ⟨hfollow, ?_⟩
  rw [steps_eq]
  split_ifs
  · rw [walk_append, hwalk]
    simp [Except.bind, walk, hd]
  · rw [List.append_nil, hwalk]

/-- Where nothing is, a text does not lead. -/
theorem leads_of_free (hway : way text = init ++ [last]) (hwalk : t.walk (t.start text) init = .ok above)
    (habove : t.node? above = some .directory) (hplain : last ≠ "." ∧ last ≠ "..")
    (hshort : last.utf8ByteSize ≤ maxNameBytes) (hnone : t.node? (above ++ [last]) = none) : t.leads text = false := by
  have hstop : ∀ rest, t.walk above (last :: rest) = .error .noEntry := by
    intro rest
    simp [walk, habove, hplain, Nat.not_lt.2 hshort, hnone]
  have hnot : t.walk (t.start text) (steps text) = .error .noEntry := by
    rw [steps_eq, hway, List.append_assoc, walk_append, hwalk]
    exact hstop _
  unfold leads find
  cases hl : t.locate text with
  | ok place =>
    rw [(following_eq_ok_iff.1 hl).2] at hnot
    cases hnot
  | error fault => rfl

theorem Writes.write (h : Writes t text init last above) (content : Content) :
    ∃ executable, t.write text content = .ok (t.insert (above ++ [last]) (.file content executable)) := by
  have hslot : t.slot (t.start text) (Files.steps text) .isDirectory = .ok (above ++ [last]) := by
    simp [slot, walkDirectory, h.steps, h.walk, h.directory, h.plain, Nat.not_lt.2 h.short]
  have hput : ∃ executable, t.putFile content (above ++ [last]) =
      .ok (t.insert (above ++ [last]) (.file content executable)) := by
    unfold putFile
    cases hn : t.node? (above ++ [last]) with
    | none => exact ⟨false, rfl⟩
    | some node =>
      cases node with
      | directory => exact absurd hn h.free
      | file _ executable => exact ⟨executable, rfl⟩
  obtain ⟨executable, hput⟩ := hput
  refine ⟨executable, following_eq_ok_iff.2 ⟨h.followable, ?_⟩⟩
  rw [hslot]
  exact hput

end Changes

end Tree

namespace FileM

section Entering

variable {t t' : Tree} {text last : String} {init : List String} {above goal : Location}

theorem exec_ensureDirectory_of_made {made : Tree} (h : t.makeDirectory text = .ok made) :
    exec (ensureDirectory text) t = (.ok (), made) := by
  have hchange : exec (change (·.makeDirectory text)) t = (.ok (), made) := by rw [exec_change, h]
  exact exec_tryCatch_ok hchange

/-- What leads to a directory is not made again. -/
theorem exec_ensureDirectory_of_locate (hl : t.locate text = .ok goal) (hd : t.node? goal = some .directory) :
    exec (ensureDirectory text) t = (.ok (), t) := by
  cases hm : t.makeDirectory text with
  | ok made =>
    have hwidens := Tree.widens_of_makeDirectory (List.mem_singleton_self text) hm
    obtain ⟨place, hnone, -, hplace⟩ := Tree.locate_of_makeDirectory hm
    cases hplace.symm.trans (hwidens.locate hl)
    rw [hnone] at hd
    cases hd
  | error fault =>
    have hchange : exec (change (·.makeDirectory text)) t = (.error fault, t) := by rw [exec_change, hm]
    have hdirectory : t.isDirectory text = true := by
      simp [Tree.isDirectory, Tree.find, hl, hd]
    unfold ensureDirectory
    rw [exec_tryCatch_error hchange, exec_bind_ok (show exec get t = (.ok t, t) from rfl), if_pos hdirectory]
    rfl

/-- A directory has been made to which a text leads, if it was not there, and no more than `t'` has. -/
structure Entered (t t' : Tree) (start : Location) (steps : List String) (goal : Location) (made : Tree) : Prop where
  home : made.home = t.home
  within : made.Within t'
  walk : made.walk start steps = .ok goal
  paved : made.Paved goal

theorem exec_ensureDirectory_of_within (h : t.Within t') (hfollow : Followable text) (hway : way text = init ++ [last])
    (hwalk : t.walk (t.start text) init = .ok above) (hpaved : t.Paved above)
    (hstep : t'.walk above [last] = .ok goal) (hd : t'.node? goal = some .directory) :
    ∃ made, exec (ensureDirectory text) t = (.ok (), made) ∧ Entered t t' (t.start text) (init ++ [last]) goal made ∧
      (t.leads text → made = t) := by
  rcases h.step hpaved hstep hd with ⟨hinto, hgoal⟩ | ⟨hplain, hshort, rfl, hnone⟩
  · have hall : t.walk (t.start text) (init ++ [last]) = .ok goal := by
      rw [Tree.walk_append, hwalk]
      exact hinto
    have hdirectory := hgoal goal (List.prefix_refl goal)
    have hlocate : t.locate text = .ok goal := Tree.locate_directory hfollow (hway ▸ hall) hdirectory
    exact ⟨t, exec_ensureDirectory_of_locate hlocate hdirectory, ⟨rfl, h, hall, hgoal⟩, fun _ => rfl⟩
  · have habove := hpaved above (List.prefix_refl above)
    have hfree : t.node? (above ++ [last]) ≠ some .directory := by simp [hnone]
    have hmade := Tree.makeDirectory_of_free hfollow hway hwalk habove hplain hshort hnone
    have hself := Tree.node?_insert_self hfree .directory
    have hkept : ∀ place, place <+: above → (t.insert (above ++ [last]) .directory).node? place = some .directory := by
      intro place hp
      rw [Tree.node?_insert_of_ne (by rintro rfl; exact hfree (hpaved _ hp)), hpaved place hp]
    refine ⟨_, exec_ensureDirectory_of_made hmade, ⟨rfl, h.insert hnone hd, ?_, ?_⟩, fun hleads => ?_⟩
    · rw [Tree.walk_append, Tree.walk_insert hfree hwalk]
      exact Tree.walk_step (hkept above (List.prefix_refl above)) hplain hshort (by rw [hself]; rfl)
    · exact Tree.Paved.concat hkept hself
    · rw [Tree.leads_of_free hway hwalk habove hplain hshort hnone] at hleads
      cases hleads

end Entering

/-! ## All directories -/

theorem makeMissing_append (xs ys : List String) :
    makeMissing (xs ++ ys) = makeMissing xs >>= fun _ => makeMissing ys := by
  induction xs with
  | nil => rw [List.nil_append, makeMissing, pure_bind]
  | cons x xs ih =>
    rw [List.cons_append, makeMissing, makeMissing, ih, bind_assoc]
    refine congrArg (get >>= ·) (funext fun t => ?_)
    split_ifs
    · rfl
    · exact (bind_assoc _ _ _).symm

section All

variable {t t' : Tree} {text : String} {goal : Location}

/-- One name further down, the directory of that text is entered. -/
theorem Entered.next {made : Tree} {above : Location} {piece : String} {count : Nat}
    (h : Entered t t' (t.start text) ((way text).take count) above made) (hcount : count < (way text).length)
    (hfollow : Followable piece) (hway : way piece = (way text).take (count + 1))
    (habsolute : isAbsolute piece = isAbsolute text)
    (hwalk : t'.walk (t.start text) ((way text).take (count + 1)) = .ok goal) (hd : t'.node? goal = some .directory)
    (habove : t'.walk (t.start text) ((way text).take count) = .ok above) :
    ∃ next, exec (ensureDirectory piece) made = (.ok (), next) ∧
      Entered t t' (t.start text) ((way text).take (count + 1)) goal next ∧ (made.leads piece → next = made) := by
  have htake : (way text).take (count + 1) = (way text).take count ++ [(way text)[count]] :=
    List.take_succ_eq_append_getElem hcount
  rw [htake, Tree.walk_append, habove] at hwalk
  have hstart : made.start piece = t.start text := by
    rw [Tree.start, Tree.start, habsolute, h.home]
  have hinto := h.walk
  rw [← hstart] at hinto
  obtain ⟨next, hnext, hentered, hleads⟩ :=
    exec_ensureDirectory_of_within h.within hfollow (hway.trans htake) hinto h.paved hwalk hd
  refine ⟨next, hnext, ⟨hentered.home.trans h.home, hentered.within, ?_, hentered.paved⟩, hleads⟩
  rw [htake, ← hstart]
  exact hentered.walk

/-- A walk down the first names goes through the directory above the last of them. -/
theorem exists_walk_take {start : Location} {names : List String} {count : Nat} (hcount : count < names.length)
    (h : t'.walk start (names.take (count + 1)) = .ok goal) : ∃ above,
      t'.walk start (names.take count) = .ok above ∧ t'.node? above = some .directory := by
  rw [List.take_succ_eq_append_getElem hcount, Tree.walk_append] at h
  cases habove : t'.walk start (names.take count) with
  | error errno =>
    rw [habove] at h
    cases h
  | ok above =>
    rw [habove] at h
    exact ⟨above, rfl, Tree.walk_eq_ok_cons h⟩

/-- Going down the names of a directory, each directory above it is entered. -/
theorem exec_makeMissing_of_within (h : t.Within t') (hfollow : Followable text) {count : Nat}
    (hcount : count ≤ (way text).length) (hwalk : t'.walk (t.start text) ((way text).take count) = .ok goal)
    (hd : t'.node? goal = some .directory) :
    ∃ made, exec (makeMissing ((List.range count).map fun k => textAbove text (k + 1))) t = (.ok (), made) ∧
      Entered t t' (t.start text) ((way text).take count) goal made := by
  induction count generalizing goal with
  | zero =>
    cases hwalk
    exact ⟨t, rfl, rfl, h, rfl, Tree.paved_start t text⟩
  | succ count ih =>
    have hpos : 0 < count + 1 := Nat.succ_pos count
    obtain ⟨above, habove, hdirectory⟩ := exists_walk_take hcount hwalk
    obtain ⟨made, hmade, hentered⟩ := ih (Nat.le_of_succ_le hcount) habove hdirectory
    obtain ⟨next, hnext, hentered', hleads⟩ := hentered.next hcount (hfollow.textAbove hpos hcount)
      (way_textAbove hpos hcount) (isAbsolute_textAbove hpos hcount) hwalk hd habove
    have hone : exec (makeMissing [textAbove text (count + 1)]) made = (.ok (), next) := by
      rw [makeMissing, exec_bind_ok (show exec get made = (.ok made, made) from rfl)]
      split_ifs with hl
      · rw [hleads hl]
        rfl
      · rw [exec_bind_ok hnext]
        rfl
    refine ⟨next, ?_, hentered'⟩
    rw [List.range_succ, List.map_append, List.map_singleton, makeMissing_append, exec_bind_ok hmade, hone]

/-- A directory can be made if its text leads to one in a tree that has at most more directories. -/
theorem exec_makeDirectories_of_within (h : t.Within t') (hfollow : Followable text)
    (hwalk : t'.walk (t.start text) (way text) = .ok goal) (hd : t'.node? goal = some .directory) :
    ∃ made, exec (makeDirectories text) t = (.ok (), made) ∧ Entered t t' (t.start text) (way text) goal made := by
  cases hlength : (way text).length with
  | zero =>
    -- The text has slashes only, so it leads to where it starts.
    have hnil := List.length_eq_zero_iff.1 hlength
    rw [hnil] at hwalk ⊢
    cases hwalk
    have hdirectory := Tree.paved_start t text (t.start text) (List.prefix_refl _)
    have hlocate : t.locate text = .ok (t.start text) :=
      Tree.locate_directory hfollow (by rw [hnil]; rfl) hdirectory
    have habove : exec (makeMissing (textsAbove text)) t = (.ok (), t) := by
      rw [textsAbove_eq, hlength]
      rfl
    refine ⟨t, ?_, rfl, h, rfl, Tree.paved_start t text⟩
    rw [makeDirectories, exec_bind_ok habove, exec_ensureDirectory_of_locate hlocate hdirectory]
  | succ count =>
    have hcount : count < (way text).length := by omega
    have htake : (way text).take (count + 1) = way text := by
      rw [← hlength, List.take_length]
    rw [← htake] at hwalk
    obtain ⟨above, habove, hdirectory⟩ := exists_walk_take hcount hwalk
    obtain ⟨made, hmade, hentered⟩ := exec_makeMissing_of_within h hfollow hcount.le habove hdirectory
    obtain ⟨last, hlast, hentered', -⟩ := hentered.next hcount hfollow htake.symm rfl hwalk hd habove
    rw [htake] at hentered'
    refine ⟨last, ?_, hentered'⟩
    rw [makeDirectories, textsAbove_eq, hlength, Nat.add_sub_cancel, exec_bind_ok hmade, hlast]

/-- If a file can be written at all in a directory that may have to be made, then that directory can be made,
and after that the file can be written. -/
theorem exec_makeDirectories_of_creatable {directory name : String} (hne : directory ≠ "") (hname : PlainName name)
    (h : t.Creatable (joinText directory name)) : ∃ made, exec (makeDirectories directory) t = (.ok (), made) ∧
      ∀ content, ∃ written, made.write (joinText directory name) content = .ok written := by
  obtain ⟨t', content, written, hwithin, hwrite⟩ := h
  obtain ⟨init, last, above, executable, hwrites, -⟩ := Tree.writes_of_write hwrite
  obtain ⟨hsteps, hprefix⟩ := steps_joinText directory hname
  rw [hwrites.steps] at hsteps
  obtain ⟨rfl, hlast⟩ := List.append_inj' hsteps rfl
  obtain rfl : last = name := List.singleton_inj.1 hlast
  have hstart : isAbsolute (joinText directory last) = isAbsolute directory := by
    obtain ⟨rest, hrest⟩ := hprefix
    obtain ⟨c, cs, hcs⟩ := List.exists_cons_of_ne_nil fun hnil => hne (String.toList_eq_nil_iff.1 hnil)
    rw [isAbsolute, isAbsolute, ← hrest, hcs]
    rfl
  have hwalk := hwrites.walk
  rw [Tree.start, hstart, hwithin.home] at hwalk
  have hfollow := hwrites.followable.of_sublist hprefix.sublist hne
  obtain ⟨made, hmade, hentered⟩ := exec_makeDirectories_of_within hwithin hfollow hwalk hwrites.directory
  refine ⟨made, hmade, fun content => ?_⟩
  have hinto := hentered.walk
  rw [Tree.start, ← hstart, ← hentered.home] at hinto
  have hready : made.Writes (joinText directory last) (way directory) last above :=
    { hwrites with
      walk := hinto
      directory := hentered.paved above (List.prefix_refl above)
      free := fun hd => hwrites.free (hentered.within.directory hd) }
  obtain ⟨executable, hwritten⟩ := hready.write content
  exact ⟨_, hwritten⟩

end All

end FileM

end JniSignatures.Files
