import Mathlib
import JniSignatures.Files.Change
import JniSignatures.Proofs.Files.Writing
/-!
# Places without detours

In a file tree every node stands in a directory (`Tree.WellFormed`), so below a place where nothing is,
nothing is (`Tree.WellFormed.node?_below`). An absolute path without double dots can lead to one place
only, the one that has its names (`Tree.place_of_walk`). Together: if a walk along such a path finds no
entry, then there is no node at its place, and none will turn up when the directories above are made.
-/

namespace JniSignatures.Files

/-- A name that leads one step down. -/
def PlainName (name : String) : Prop :=
  name ≠ "" ∧ name ≠ "." ∧ name ≠ ".." ∧ '/' ∉ name.toList

instance : DecidablePred PlainName :=
  fun name => inferInstanceAs (Decidable (name ≠ "" ∧ name ≠ "." ∧ name ≠ ".." ∧ '/' ∉ name.toList))

/-! ## Last steps -/

/-- A plain name after a slash, or alone, is the last step of the text. -/
theorem last_step_append {front name : String} (hfront : front = "" ∨ front.toList.getLast? = some '/')
    (hname : PlainName name) : (steps (front ++ name)).getLast? = some name := by
  obtain ⟨hne, -, -, hslash⟩ := hname
  have hone : names name = [name] := by
    rw [names, List.splitOn_eq_singleton hslash, List.map_singleton, String.ofList_toList]
  have hnames : ∃ init, names (front ++ name) = init ++ [name] := by
    rcases hfront with rfl | hfront
    · exact ⟨[], by rw [String.empty_append, hone, List.nil_append]⟩
    · obtain ⟨init, hinit⟩ := List.getLast?_eq_some_iff.1 hfront
      refine ⟨(init.splitOn '/').map String.ofList, ?_⟩
      rw [← hone, names, String.toList_append, hinit, List.append_assoc, List.singleton_append,
        List.splitOn_append_cons_self, List.map_append]
      rfl
  have hend : (front ++ name).toList.getLast? ≠ some '/' := by
    rw [String.toList_append, List.getLast?_append_of_ne_nil _ (by simpa using hne)]
    exact fun h => hslash (List.mem_of_getLast? h)
  obtain ⟨init, hinit⟩ := hnames
  rw [steps, if_neg hend, hinit, List.filter_append, List.filter_cons_of_pos (by simpa using hne),
    List.filter_nil, List.getLast?_concat]

theorem last_step_joinText (dir : String) {name : String} (hname : PlainName name) :
    (steps (joinText dir name)).getLast? = some name := by
  have habsolute : isAbsolute name = false := by
    rw [Bool.eq_false_iff]
    intro h
    exact hname.2.2.2 (List.mem_of_mem_head? (beq_iff_eq.1 h))
  unfold joinText
  rw [habsolute, if_neg Bool.false_ne_true]
  split_ifs with h
  · exact last_step_append h hname
  · exact last_step_append (.inr (by simp)) hname

/-! ## Paths -/

namespace Path

/-- An absolute path all of whose names lead down. -/
structure Direct (p : Path) : Prop where
  anchor : p.anchor = "/"
  parts : ∀ name ∈ p.parts, PlainName name

theorem Direct.wellFormed {p : Path} (hp : p.Direct) : p.WellFormed :=
  ⟨.inr (.inl hp.anchor), fun name hm =>
    ⟨(hp.parts name hm).1, (hp.parts name hm).2.1, (hp.parts name hm).2.2.2⟩⟩

theorem fold_plain {start parts : List String} (hstart : ∀ name ∈ start, PlainName name)
    (hparts : ∀ name ∈ parts, name ≠ "" ∧ name ≠ "." ∧ '/' ∉ name.toList) :
    ∀ name ∈ fold start parts, PlainName name := by
  induction parts generalizing start with
  | nil => exact hstart
  | cons part rest ih =>
    obtain ⟨hpart, hrest⟩ := List.forall_mem_cons.1 hparts
    have hnext : ∀ name ∈ (if part = ".." then start.dropLast else start ++ [part]), PlainName name := by
      split_ifs with hup
      · exact fun name hm => hstart name (List.mem_of_mem_dropLast hm)
      · exact List.forall_mem_append.2 ⟨hstart, List.forall_mem_singleton.2 ⟨hpart.1, hpart.2.1, hup, hpart.2.2⟩⟩
    exact ih hnext hrest

theorem WellFormed.absolute {p : Path} (hp : p.WellFormed) {home : Location}
    (hhome : ∀ name ∈ home, PlainName name) : (p.absolute home).Direct := by
  refine ⟨rfl, fold_plain ?_ hp.parts⟩
  split_ifs
  · exact hhome
  · exact List.forall_mem_nil _

theorem Direct.child {p : Path} (hp : p.Direct) {text : String} {parts : List String}
    (h : ofText text = ⟨"", parts⟩) (hparts : ∀ name ∈ parts, PlainName name) : (p.child text).Direct := by
  rw [child_eq h]
  exact ⟨hp.anchor, List.forall_mem_append.2 ⟨hp.parts, hparts⟩⟩

/-- The text of a path is read as that path. -/
theorem ofText_text {p : Path} (hp : p.Direct) (hne : p.parts ≠ []) : Path.ofText p.text = p := by
  obtain ⟨anchor, parts⟩ := p
  obtain rfl : anchor = "/" := hp.anchor
  have hparts : (names (Path.text ⟨"/", parts⟩)).filter (fun name => name ≠ "" ∧ name ≠ ".") = parts := by
    obtain ⟨empties, hempty, hnames⟩ := names_text hp.wellFormed hne
    have hnone : empties.filter (fun name => name ≠ "" ∧ name ≠ ".") = [] :=
      List.filter_eq_nil_iff.2 fun name hm => by simp [hempty name hm]
    have hall : parts.filter (fun name => name ≠ "" ∧ name ≠ ".") = parts := by
      apply List.filter_eq_self.2
      intro name hm
      have hplain : PlainName name := hp.parts name hm
      simp [hplain.1, hplain.2.1]
    rw [hnames, List.filter_append, hnone, hall]
    rfl
  have hanchor : Path.anchorOf (Path.text ⟨"/", parts⟩) = "/" := by
    obtain ⟨first, rest, rfl⟩ := List.exists_cons_of_ne_nil hne
    obtain ⟨hfirst, -, -, hslash⟩ := hp.parts first List.mem_cons_self
    obtain ⟨c, cs, hcs⟩ := List.exists_cons_of_ne_nil (fun h => hfirst (String.toList_eq_nil_iff.1 h))
    have hc : c ≠ '/' := by
      rintro rfl
      exact hslash (by simp [hcs])
    have htext : ∃ more, (Path.text ⟨"/", first :: rest⟩).toList = '/' :: c :: more := by
      rw [text_of_slash rfl]
      cases rest with
      | nil => exact ⟨cs, by simp [hcs]⟩
      | cons second rest => exact ⟨_, by simp [String.intercalate_cons_cons, hcs]; rfl⟩
    obtain ⟨more, hmore⟩ := htext
    unfold Path.anchorOf
    rw [hmore]
    simp [hc]
  unfold Path.ofText
  rw [hanchor, hparts]

end Path

namespace Tree

/-! ## Trees -/

/-- Every node of the tree stands in a directory, and the working directory has plain names. -/
structure WellFormed (t : Tree) : Prop where
  home : ∀ name ∈ t.home, PlainName name
  above : ∀ entry ∈ t.nodes, t.node? entry.1.dropLast = some .directory

instance (t : Tree) : Decidable t.WellFormed :=
  decidable_of_iff ((∀ name ∈ t.home, PlainName name) ∧
      ∀ entry ∈ t.nodes, t.node? entry.1.dropLast = some .directory)
    ⟨fun h => ⟨h.1, h.2⟩, fun h => ⟨h.home, h.above⟩⟩

section Nodes

variable {t : Tree} {place other : Location}

theorem WellFormed.node?_above (h : t.WellFormed) {name : String} (hn : t.node? (place ++ [name]) ≠ none) :
    t.node? place = some .directory := by
  by_cases hp : (place ++ [name]).isPrefixOf t.home
  · refine node?_of_above_home (List.isPrefixOf_iff_prefix.2 ?_)
    exact (List.prefix_append place [name]).trans (List.isPrefixOf_iff_prefix.1 hp)
  · rw [node?, if_neg hp] at hn
    obtain ⟨node, hnode⟩ := Option.ne_none_iff_exists'.1 hn
    obtain ⟨front, back, heq, -⟩ := List.lookup_eq_some_iff.1 hnode
    have hentry : (place ++ [name], node) ∈ t.nodes := by rw [heq]; simp
    have habove := h.above _ hentry
    rwa [List.dropLast_concat] at habove

/-- Below nothing there is nothing. -/
theorem WellFormed.node?_below (h : t.WellFormed) (hn : t.node? place = none) (rest : List String) :
    t.node? (place ++ rest) = none := by
  induction rest using List.reverseRecOn with
  | nil => rwa [List.append_nil]
  | append_singleton rest name ih =>
    by_contra hne
    rw [← List.append_assoc] at hne
    rw [h.node?_above hne] at ih
    cases ih

theorem node?_erase_of_ne (h : other ≠ place) : (t.erase place).node? other = t.node? other := by
  have hlookup : (t.nodes.filter fun entry => entry.1 ≠ place).lookup other = t.nodes.lookup other := by
    induction t.nodes with
    | nil => rfl
    | cons entry rest ih =>
      obtain ⟨key, node⟩ := entry
      by_cases hk : key = place
      · have hne : (other == key) = false := beq_eq_false_iff_ne.2 (hk ▸ h)
        rw [List.filter_cons_of_neg (by simpa using hk), List.lookup_cons, hne]
        exact ih
      · rw [List.filter_cons_of_pos (by simpa using hk), List.lookup_cons, List.lookup_cons, ih]
  simp only [node?, erase, hlookup]

/-- A file that is taken away is gone. -/
theorem node?_erase_self (h : t.node? place ≠ some .directory) : (t.erase place).node? place = none := by
  have hp : ¬ place.isPrefixOf t.home := fun hp => h (node?_of_above_home hp)
  rw [node?, erase, if_neg hp, List.lookup_eq_none_iff]
  intro entry hm
  obtain ⟨-, hne⟩ := List.mem_filter.1 hm
  have hne : entry.1 ≠ place := by simpa using hne
  exact bne_iff_ne.2 (Ne.symm hne)

/-- A tree stays well formed when a node is put into one of its directories, where no directory is. -/
theorem WellFormed.insert (h : t.WellFormed) {above : Location} {last : String}
    (habove : t.node? above = some .directory) (hfree : t.node? (above ++ [last]) ≠ some .directory) (node : Node) :
    (t.insert (above ++ [last]) node).WellFormed := by
  have hkept : ∀ place, t.node? place = some .directory →
      (t.insert (above ++ [last]) node).node? place = some .directory := by
    intro place hplace
    have hne : place ≠ above ++ [last] := by
      rintro rfl
      exact hfree hplace
    rw [node?_insert_of_ne hne, hplace]
  refine ⟨h.home, fun entry hm => hkept _ ?_⟩
  rcases Keyed.mem_insert hm with rfl | hm
  · rwa [List.dropLast_concat]
  · exact h.above entry hm

theorem WellFormed.erase (h : t.WellFormed) (hfile : t.node? place ≠ some .directory) : (t.erase place).WellFormed := by
  refine ⟨h.home, fun entry hm => ?_⟩
  have habove := h.above entry (List.mem_of_mem_filter hm)
  have hne : entry.1.dropLast ≠ place := by
    rintro rfl
    exact hfile habove
  rw [node?_erase_of_ne hne, habove]

end Nodes

/-! ## Single changes -/

section Changes

variable {t t' : Tree} {text : String}

theorem makeDirectory_eq_ok (h : t.makeDirectory text = .ok t') : ∃ above last,
    t.node? above = some .directory ∧ t.node? (above ++ [last]) = none ∧
      t' = t.insert (above ++ [last]) .directory := by
  obtain ⟨-, h⟩ := following_eq_ok_iff.1 h
  cases hs : t.slot (t.start text) ((names text).filter (· ≠ "")) .exists with
  | error errno => rw [hs] at h; cases h
  | ok place =>
    rw [hs] at h
    obtain ⟨-, last, above, -, -, habove, -, -, rfl⟩ := slot_eq_ok hs
    have hadd : t.addDirectory (above ++ [last]) = .ok t' := h
    unfold addDirectory at hadd
    split at hadd
    · cases hadd
    · rename_i hfree
      exact ⟨above, last, habove, hfree, (Except.ok.inj hadd).symm⟩

theorem WellFormed.makeDirectory (ht : t.WellFormed) (h : t.makeDirectory text = .ok t') : t'.WellFormed := by
  obtain ⟨above, last, habove, hfree, rfl⟩ := makeDirectory_eq_ok h
  exact ht.insert habove (by simp [hfree]) .directory

theorem WellFormed.write (ht : t.WellFormed) {content : Content} (h : t.write text content = .ok t') :
    t'.WellFormed := by
  obtain ⟨init, last, above, executable, hw, rfl⟩ := writes_of_write h
  exact ht.insert hw.directory hw.free _

theorem following_eq_noEntry {α : Type} {outcome : Except Errno α} {text' : String}
    (h : following text outcome = .error (.refused .noEntry text')) : text = "" ∨ outcome = .error .noEntry := by
  unfold following at h
  split_ifs at h with hnull hempty hlong
  · cases h
  · exact .inl hempty
  · cases h
  · cases outcome with
    | ok result => cases h
    | error errno =>
      cases h
      exact .inr rfl

/-- What is removed is the file that the text leads to. -/
theorem remove_eq_ok (h : t.remove text = .ok t') : ∃ place, t.walk (t.start text) (steps text) = .ok place ∧
    t.node? place ≠ some .directory ∧ t' = t.erase place := by
  obtain ⟨-, h⟩ := following_eq_ok_iff.1 h
  cases hw : t.walk (t.start text) (steps text) with
  | error errno => rw [hw] at h; cases h
  | ok place =>
    rw [hw] at h
    have hremove : t.removeFile place = .ok t' := h
    unfold removeFile at hremove
    split at hremove
    · rename_i hn
      exact ⟨place, rfl, by simp [hn], (Except.ok.inj hremove).symm⟩
    · cases hremove
    · cases hremove

theorem WellFormed.remove (ht : t.WellFormed) (h : t.remove text = .ok t') : t'.WellFormed := by
  obtain ⟨place, -, hfile, rfl⟩ := remove_eq_ok h
  exact ht.erase hfile

end Changes

/-! ## Walks -/

section Walks

variable {t : Tree} {start goal : Location} {steps : List String}

/-- A walk that only goes down arrives where its names say. -/
theorem place_of_walk (hs : ∀ step ∈ steps, PlainName step) (h : t.walk start steps = .ok goal) :
    goal = start ++ steps := by
  induction steps generalizing start with
  | nil =>
    cases h
    rw [List.append_nil]
  | cons step steps ih =>
    obtain ⟨hstep, hsteps⟩ := List.forall_mem_cons.1 hs
    rw [walk] at h
    cases hn : t.node? start with
    | none => rw [hn] at h; cases h
    | some node =>
      cases node with
      | file content executable => rw [hn] at h; cases h
      | directory =>
        rw [hn] at h
        dsimp only at h
        rw [if_neg hstep.2.1, if_neg hstep.2.2.1] at h
        split_ifs at h
        rw [ih hsteps h, List.append_assoc]
        rfl

/-- If a walk that only goes down finds no entry, nothing is where its names say. -/
theorem WellFormed.node?_of_walk (ht : t.WellFormed) (hs : ∀ step ∈ steps, PlainName step)
    (h : t.walk start steps = .error .noEntry) : t.node? (start ++ steps) = none := by
  induction steps generalizing start with
  | nil => cases h
  | cons step steps ih =>
    obtain ⟨hstep, hsteps⟩ := List.forall_mem_cons.1 hs
    rw [walk] at h
    cases hn : t.node? start with
    | none => exact ht.node?_below hn _
    | some node =>
      cases node with
      | file content executable => rw [hn] at h; cases h
      | directory =>
        rw [hn] at h
        dsimp only at h
        rw [if_neg hstep.2.1, if_neg hstep.2.2.1] at h
        rw [show start ++ step :: steps = start ++ [step] ++ steps by simp]
        split_ifs at h with hlong hnone
        · cases h
        · exact ht.node?_below (Option.isNone_iff_eq_none.1 hnone) _
        · exact ih hsteps h

end Walks

/-! ## Files at direct paths -/

section Direct

variable {t : Tree} {p : Path}

theorem start_direct (hp : p.Direct) : t.start p.text = [] := by
  rw [start, isAbsolute_text hp.wellFormed, hp.anchor]
  rfl

theorem walk_direct (hp : p.Direct) (hne : p.parts ≠ []) :
    t.walk (t.start p.text) (steps p.text) = t.walk [] p.parts := by
  rw [start_direct hp, steps_text hp.wellFormed hne]

/-- A file that is removed is gone from its place. -/
theorem node?_of_remove {t' : Tree} (hp : p.Direct) (hne : p.parts ≠ []) (h : t.remove p.text = .ok t') :
    t'.node? p.parts = none := by
  obtain ⟨place, hwalk, hfile, rfl⟩ := remove_eq_ok h
  rw [walk_direct hp hne] at hwalk
  obtain rfl : place = p.parts := place_of_walk hp.parts hwalk
  exact node?_erase_self hfile

/-- If there is no entry to remove, there is no node at the place. -/
theorem WellFormed.node?_of_remove (ht : t.WellFormed) (hp : p.Direct) (hne : p.parts ≠ []) {text : String}
    (h : t.remove p.text = .error (.refused .noEntry text)) : t.node? p.parts = none := by
  rcases following_eq_noEntry h with hempty | hbind
  · have hsteps := steps_text hp.wellFormed hne
    rw [hempty] at hsteps
    exact absurd hsteps.symm hne
  · rw [walk_direct hp hne] at hbind
    cases hw : t.walk [] p.parts with
    | error errno =>
      rw [hw] at hbind
      cases hbind
      exact ht.node?_of_walk hp.parts hw
    | ok place =>
      rw [hw] at hbind
      obtain rfl : place = p.parts := place_of_walk hp.parts hw
      have hremove : t.removeFile p.parts = .error .noEntry := hbind
      unfold removeFile at hremove
      split at hremove
      · cases hremove
      · cases hremove
      · assumption

/-- A text that was followed to no entry can be followed. -/
theorem followable_of_noEntry {α : Type} {outcome : Except Errno α} {text text' : String} (hne : text ≠ "")
    (h : following text outcome = .error (.refused .noEntry text')) : Followable text := by
  unfold following at h
  split_ifs at h with hnull hlong
  · cases h
  · cases h
  · exact ⟨fun hm => hnull (List.contains_iff_mem.2 hm), hne, Nat.not_le.1 hlong⟩

/-- In the directory below which a file is, a name leads to no file unless a file stands there. -/
theorem probeFile_beside {above other : Path} {name : String} {parts : List String} {place : Location}
    {content : Content} (hother : other.Direct) (hparts : other.parts = above.parts ++ [name])
    (hp : p.Direct) (hp' : p.parts = above.parts ++ parts) (hne : parts ≠ []) (hholds : t.Holds p.text place content)
    (hfollow : Followable other.text) (hshort : name.utf8ByteSize ≤ maxNameBytes)
    (hfile : ∀ content executable, t.node? other.parts ≠ some (.file content executable)) :
    t.probeFile other = .ok false := by
  have hwalk := hholds.walk
  rw [walk_direct hp (by simp [hp', hne]), hp', walk_append] at hwalk
  cases habove : t.walk [] above.parts with
  | error errno =>
    rw [habove] at hwalk
    cases hwalk
  | ok found =>
    rw [habove] at hwalk
    have hplain : ∀ step ∈ above.parts, PlainName step := by
      intro step hstep
      exact hp.parts step (by rw [hp']; exact List.mem_append_left _ hstep)
    obtain rfl : found = above.parts := place_of_walk hplain habove
    obtain ⟨step, rest, rfl⟩ := List.exists_cons_of_ne_nil hne
    have hdirectory : t.node? above.parts = some .directory := walk_eq_ok_cons hwalk
    have hname : PlainName name := hother.parts name (by simp [hparts])
    -- The walk to the other path comes to the same directory, and either stops there or finds a directory.
    have hlocate : t.locate other.text = following other.text (t.walk above.parts [name]) := by
      rw [locate, walk_direct hother (by simp [hparts]), hparts, walk_append, habove]
      rfl
    unfold probeFile probe find
    rw [hlocate]
    cases hn : t.node? (above.parts ++ [name]) with
    | none =>
      have hnone : t.walk above.parts [name] = .error .noEntry := by
        simp [walk, hdirectory, hname.2.1, hname.2.2.1, Nat.not_lt.2 hshort, hn]
      have hnot : following other.text (t.walk above.parts [name]) = .error (.refused .noEntry other.text) := by
        unfold following
        rw [hnone]
        obtain ⟨hnull, hempty, hlong⟩ := hfollow
        simp [hnull, hempty, Nat.not_le.2 hlong]
      rw [hnot]
    | some node =>
      have hgoes := walk_step hdirectory ⟨hname.2.1, hname.2.2.1⟩ hshort (by rw [hn]; rfl)
      rw [following_eq_ok_iff.2 ⟨hfollow, hgoes⟩]
      cases node with
      | directory => simp [hn]
      | file content executable =>
        rw [hparts] at hfile
        exact absurd hn (hfile content executable)

end Direct

end Tree

end JniSignatures.Files
