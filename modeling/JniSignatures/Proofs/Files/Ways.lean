import Mathlib
import JniSignatures.Proofs.Files.Places
/-!
# The names of a directory's text

A text is followed name by name, and empty names do not count. What counts of a directory's text (`way`) is the
front part of what counts of the text of a file in it (`steps_joinText`). The text of a directory above it has the
first of its names, starts at the same place (`isAbsolute_textAbove`) and can be followed if the directory's own
text can (`Followable.textAbove`).
-/

namespace JniSignatures.Files

/-! ## Texts of directories -/

/-- The names of a text that are not empty. -/
def way (text : String) : List String :=
  (names text).filter (· ≠ "")

section Texts

variable {text name : String}

theorem steps_eq (text : String) : steps text = way text ++ if text.toList.getLast? = some '/' then ["."] else [] := by
  unfold steps way
  dsimp only
  split_ifs
  · rfl
  · rw [List.append_nil]

theorem mem_way (h : name ∈ way text) : name ≠ "" ∧ '/' ∉ name.toList := by
  obtain ⟨hm, hne⟩ := List.mem_filter.1 h
  exact ⟨by simpa using hne, slash_notMem_names hm⟩

theorem way_slash (text : String) : way ("/" ++ text) = way text := by
  rw [way, names_slash, List.filter_cons_of_neg (by simp), way]

/-- Slashes in front of a text add no name. -/
theorem way_slashes {slashes : List Char} (h : ∀ c ∈ slashes, c = '/') (text : String) :
    way (String.ofList slashes ++ text) = way text := by
  induction slashes with
  | nil => rw [String.ofList_nil, String.empty_append]
  | cons c cs ih =>
    obtain ⟨rfl, hcs⟩ := List.forall_mem_cons.1 h
    have hsplit : String.ofList ('/' :: cs) ++ text = "/" ++ (String.ofList cs ++ text) := by
      apply String.toList_inj.1
      simp
    rw [hsplit, way_slash, ih hcs]

theorem way_intercalate {parts : List String} (hne : parts ≠ []) (h : ∀ name ∈ parts, name ≠ "" ∧ '/' ∉ name.toList) :
    way (String.intercalate "/" parts) = parts := by
  rw [way, names_intercalate hne fun name hm => (h name hm).2]
  exact List.filter_eq_self.2 fun name hm => by simpa using (h name hm).1

/-- What is joined from fewer pieces is part of what is joined from all. -/
theorem intercalate_sublist (sep : List Char) {pieces pieces' : List (List Char)} (h : pieces.Sublist pieces') :
    (sep.intercalate pieces).Sublist (sep.intercalate pieces') := by
  induction h with
  | slnil => exact .refl _
  | @cons pieces pieces' piece h ih =>
    by_cases hne : pieces' = []
    · subst hne
      obtain rfl := List.sublist_nil.1 h
      exact List.nil_sublist _
    · rw [List.intercalate_cons_of_ne_nil hne]
      exact ih.trans (List.sublist_append_right _ _)
  | @cons_cons pieces pieces' piece h ih =>
    by_cases hne : pieces = []
    · subst hne
      rw [List.intercalate_singleton]
      by_cases hne' : pieces' = []
      · subst hne'
        rw [List.intercalate_singleton]
      · rw [List.intercalate_cons_of_ne_nil hne', List.append_assoc]
        exact List.sublist_append_left _ _
    · have hne' : pieces' ≠ [] := by
        rintro rfl
        exact hne (List.sublist_nil.1 h)
      rw [List.intercalate_cons_of_ne_nil hne, List.intercalate_cons_of_ne_nil hne']
      exact List.Sublist.append_left ih _

theorem way_join (front back : String) : way (front ++ "/" ++ back) = way front ++ way back := by
  have hnames : names (front ++ "/" ++ back) = names front ++ names back := by
    have hsplit : (front ++ "/" ++ back).toList = front.toList ++ '/' :: back.toList := by simp
    rw [names, hsplit, List.splitOn_append_cons_self, List.map_append, names, names]
  rw [way, hnames, List.filter_append, way, way]

/-- The names of a file in a directory are those of the directory and its own. -/
theorem steps_joinText (dir : String) (hname : PlainName name) :
    steps (joinText dir name) = way dir ++ [name] ∧ dir.toList <+: (joinText dir name).toList := by
  obtain ⟨hne, -, -, hslash⟩ := hname
  have habsolute : isAbsolute name = false := by
    rw [Bool.eq_false_iff]
    exact fun h => hslash (List.mem_of_mem_head? (beq_iff_eq.1 h))
  have hone : way name = [name] := by
    rw [way, names, List.splitOn_eq_singleton hslash, List.map_singleton, String.ofList_toList,
      List.filter_cons_of_pos (by simpa using hne), List.filter_nil]
  have hend : ∀ front : String, (front ++ name).toList.getLast? ≠ some '/' := by
    intro front h
    rw [String.toList_append, List.getLast?_append_of_ne_nil _ (by simpa using hne)] at h
    exact hslash (List.mem_of_getLast? h)
  unfold joinText
  rw [habsolute, if_neg Bool.false_ne_true]
  split_ifs with hdir
  · refine ⟨?_, by rw [String.toList_append]; exact List.prefix_append _ _⟩
    rw [steps_eq, if_neg (hend dir), List.append_nil]
    rcases hdir with rfl | hdir
    · rw [String.empty_append, hone]
      rfl
    · obtain ⟨front, hfront⟩ := List.getLast?_eq_some_iff.1 hdir
      obtain rfl : dir = String.ofList front ++ "/" := String.toList_inj.1 (by simpa using hfront)
      have hempty : way (String.ofList front ++ "/") = way (String.ofList front) := by
        have hway := way_join (String.ofList front) ""
        rwa [String.append_empty, show way "" = [] by decide, List.append_nil] at hway
      rw [way_join, hone, hempty]
  · refine ⟨?_, by rw [String.append_assoc, String.toList_append]; exact List.prefix_append _ _⟩
    rw [steps_eq, if_neg (hend (dir ++ "/")), List.append_nil, way_join, hone]

theorem Followable.of_sublist {other : String} (h : Followable other) (hs : text.toList.Sublist other.toList)
    (hne : text ≠ "") : Followable text := by
  refine ⟨fun hm => h.1 (hs.subset hm), hne, lt_of_le_of_lt ?_ h.2.2⟩
  have hsize : ∀ s : String, s.utf8ByteSize = String.utf8Len s.toList := by
    intro s
    rw [← String.utf8ByteSize_ofList, String.ofList_toList]
  rw [hsize, hsize]
  exact String.utf8Len_le_of_sublist hs

end Texts

/-! ## The texts above a directory -/

section Above

/-- The text of the first names of a directory's text. -/
def textAbove (text : String) (count : Nat) : String :=
  String.ofList (text.toList.takeWhile (· == '/')) ++ String.intercalate "/" ((way text).take count)

theorem textsAbove_eq (text : String) :
    FileM.textsAbove text = (List.range ((way text).length - 1)).map fun k => textAbove text (k + 1) :=
  rfl

variable {text : String} {count : Nat}

theorem slashes_front (text : String) : ∀ c ∈ text.toList.takeWhile (· == '/'), c = '/' :=
  fun _ hc => beq_iff_eq.1 (@List.mem_takeWhile_imp _ (· == '/') _ _ hc)

theorem take_way_ne_nil (h : 0 < count) (hle : count ≤ (way text).length) : (way text).take count ≠ [] := by
  apply List.ne_nil_of_length_pos
  rwa [List.length_take, min_eq_left hle]

theorem way_textAbove (h : 0 < count) (hle : count ≤ (way text).length) :
    way (textAbove text count) = (way text).take count := by
  rw [textAbove, way_slashes (slashes_front text)]
  exact way_intercalate (take_way_ne_nil h hle) fun name hm => mem_way (List.mem_of_mem_take hm)

theorem isAbsolute_textAbove (h : 0 < count) (hle : count ≤ (way text).length) :
    isAbsolute (textAbove text count) = isAbsolute text := by
  cases habs : isAbsolute text with
  | true =>
    obtain ⟨rest, hrest⟩ := List.head?_eq_some_iff.1 (beq_iff_eq.1 habs)
    simp [isAbsolute, textAbove, hrest]
  | false =>
    have hnone : text.toList.takeWhile (· == '/') = [] := by
      cases hcs : text.toList with
      | nil => rfl
      | cons c cs =>
        have hc : (c == '/') = false := by simpa [isAbsolute, hcs] using habs
        rw [List.takeWhile_cons, hc]
        rfl
    -- The text starts with its first name, which is not empty.
    rw [Bool.eq_false_iff]
    intro habove
    have hhead := head?_names habove
    rw [textAbove, hnone, String.ofList_nil, String.empty_append,
      names_intercalate (take_way_ne_nil h hle) fun name hm => (mem_way (List.mem_of_mem_take hm)).2] at hhead
    exact (mem_way (List.mem_of_mem_take (List.mem_of_mem_head? hhead))).1 rfl

theorem textAbove_sublist (text : String) (count : Nat) : (textAbove text count).toList.Sublist text.toList := by
  have hsplit : text = String.ofList (text.toList.takeWhile (· == '/')) ++
      String.ofList (text.toList.dropWhile (· == '/')) := by
    apply String.toList_inj.1
    rw [String.toList_append, String.toList_ofList, String.toList_ofList, List.takeWhile_append_dropWhile]
  have hrest : way text = way (String.ofList (text.toList.dropWhile (· == '/'))) :=
    (congrArg way hsplit).trans (way_slashes (slashes_front text) _)
  have hpieces : (((way text).take count).map String.toList).Sublist
      ((text.toList.dropWhile (· == '/')).splitOn '/') := by
    have hnames : ((names (String.ofList (text.toList.dropWhile (· == '/')))).map String.toList) =
        (text.toList.dropWhile (· == '/')).splitOn '/' := by
      simp [names, Function.comp_def]
    rw [hrest, ← hnames]
    exact ((List.take_sublist _ _).trans List.filter_sublist).map _
  have hjoined := intercalate_sublist ['/'] hpieces
  rw [List.intercalate_splitOn] at hjoined
  have hslash : ("/" : String).toList = ['/'] := rfl
  rw [textAbove, String.toList_append, String.toList_ofList, String.toList_intercalate, hslash]
  exact (List.Sublist.append_left hjoined _).trans (by rw [List.takeWhile_append_dropWhile])

theorem Followable.textAbove (h : Followable text) (hpos : 0 < count) (hle : count ≤ (way text).length) :
    Followable (textAbove text count) := by
  refine h.of_sublist (textAbove_sublist text count) ?_
  intro hempty
  have hway := way_textAbove hpos hle
  rw [hempty] at hway
  exact take_way_ne_nil hpos hle hway.symm

end Above

end JniSignatures.Files
