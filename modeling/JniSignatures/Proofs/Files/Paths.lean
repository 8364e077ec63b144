import Mathlib
import JniSignatures.Files.Tree
/-!
# The steps of a path

The text of a path in normal form leads along the names of the path, one step for each
(`steps_text`). The text of a path without names leads to where it starts, which takes one step with a
dot. A path below another one starts where that one starts, and its text goes on behind a slash.
-/

namespace JniSignatures.Files

/-! ## Names -/

/-- No name has a slash in it. -/
theorem slash_notMem_names {text name : String} (h : name ∈ names text) : '/' ∉ name.toList := by
  -- Every split starts a new first piece, so all pieces are followed at once.
  have main : ∀ cs piece : List Char, piece ∈ cs.splitOn '/' → '/' ∉ piece := by
    intro cs
    induction cs with
    | nil =>
      intro piece hp
      rw [List.splitOn_nil, List.mem_singleton] at hp
      simp [hp]
    | cons c cs ih =>
      intro piece hp
      rw [List.splitOn_cons_eq_if_modifyHead] at hp
      split at hp
      · rcases List.mem_cons.1 hp with rfl | hp
        · exact List.not_mem_nil
        · exact ih piece hp
      · rename_i hc
        obtain ⟨first, rest, hsplit⟩ := List.exists_cons_of_ne_nil (List.splitOn_ne_nil '/' cs)
        rw [hsplit] at ih hp
        rcases List.mem_cons.1 hp with rfl | hp
        · have hne : '/' ≠ c := fun he => hc (beq_iff_eq.2 he.symm)
          exact fun hm => (List.mem_cons.1 hm).elim hne (ih first List.mem_cons_self)
        · exact ih piece (List.mem_cons_of_mem _ hp)
  obtain ⟨piece, hp, rfl⟩ := List.mem_map.1 h
  rw [String.toList_ofList]
  exact main _ _ hp

namespace Path

/-- A path whose parts are names, as it comes from a text. -/
structure WellFormed (p : Path) : Prop where
  anchor : p.anchor = "" ∨ p.anchor = "/" ∨ p.anchor = "//"
  parts : ∀ name ∈ p.parts, name ≠ "" ∧ name ≠ "." ∧ '/' ∉ name.toList

theorem ofText_wellFormed (text : String) : (ofText text).WellFormed := by
  refine ⟨?_, fun name hname => ?_⟩
  · show anchorOf text = "" ∨ anchorOf text = "/" ∨ anchorOf text = "//"
    unfold anchorOf
    split
    · exact .inr (.inr rfl)
    · split
      · exact .inr (.inl rfl)
      · exact .inr (.inr rfl)
    · exact .inr (.inl rfl)
    · exact .inl rfl
  · obtain ⟨hm, hn⟩ := List.mem_filter.1 hname
    have hn : name ≠ "" ∧ name ≠ "." := by simpa using hn
    exact ⟨hn.1, hn.2, slash_notMem_names hm⟩

theorem WellFormed.join {p q : Path} (hp : p.WellFormed) (hq : q.WellFormed) : (p.join q).WellFormed := by
  unfold Path.join
  split
  · exact ⟨hp.anchor, List.forall_mem_append.2 ⟨hp.parts, hq.parts⟩⟩
  · exact hq

theorem WellFormed.child {p : Path} (hp : p.WellFormed) (text : String) : (p.child text).WellFormed :=
  hp.join (ofText_wellFormed text)

theorem WellFormed.eq_of_nil {p : Path} (hp : p.WellFormed) (hnil : p.parts = []) :
    p = ⟨"", []⟩ ∨ p = ⟨"/", []⟩ ∨ p = ⟨"//", []⟩ := by
  obtain ⟨anchor, parts⟩ := p
  obtain rfl : parts = [] := hnil
  rcases hp.anchor with h | h | h
  · exact .inl (congrArg (Path.mk · []) h)
  · exact .inr (.inl (congrArg (Path.mk · []) h))
  · exact .inr (.inr (congrArg (Path.mk · []) h))

/-- The path of a relative text, seen from another path. -/
theorem child_eq {p : Path} {text : String} {parts : List String} (h : ofText text = ⟨"", parts⟩) :
    p.child text = { p with parts := p.parts ++ parts } := by
  rw [Path.child, h, Path.join, if_pos rfl]

end Path

/-! ## Steps -/

theorem names_intercalate {parts : List String} (hne : parts ≠ [])
    (h : ∀ name ∈ parts, '/' ∉ name.toList) : names (String.intercalate "/" parts) = parts := by
  have hslash : ("/" : String).toList = ['/'] := rfl
  rw [names, String.toList_intercalate, hslash, List.splitOn_intercalate '/' ?_ (by simpa using hne), List.map_map]
  · exact (List.map_congr_left fun name _ => String.ofList_toList).trans (List.map_id parts)
  · intro piece hp
    obtain ⟨name, hm, rfl⟩ := List.mem_map.1 hp
    exact h name hm

/-- A slash in front of a text adds an empty name. -/
theorem names_slash (text : String) : names ("/" ++ text) = "" :: names text := by
  have hslash : ("/" ++ text).toList = [] ++ '/' :: text.toList := by simp
  rw [names, hslash, List.splitOn_append_cons_self]
  rfl

theorem filter_parts {p : Path} (hp : p.WellFormed) : p.parts.filter (· ≠ "") = p.parts :=
  List.filter_eq_self.2 fun name hm => by simpa using (hp.parts name hm).1

theorem text_of_parts {p : Path} (hne : p.parts ≠ []) : p.text = p.anchor ++ String.intercalate "/" p.parts :=
  if_neg fun h => hne h.2

theorem text_of_slash {p : Path} (h : p.anchor = "/") : p.text = "/" ++ String.intercalate "/" p.parts := by
  unfold Path.text
  rw [h, if_neg (by simp)]

/-- What is in a name of a path is in its text. -/
theorem mem_text_of_mem_parts {p : Path} {name : String} (hname : name ∈ p.parts) {c : Char}
    (hc : c ∈ name.toList) : c ∈ p.text.toList := by
  have main : ∀ {pieces : List (List Char)} {piece : List Char}, piece ∈ pieces → c ∈ piece →
      c ∈ ['/'].intercalate pieces := by
    intro pieces piece hpiece hc
    induction pieces with
    | nil => cases hpiece
    | cons first rest ih =>
      by_cases hrest : rest = []
      · subst hrest
        rw [List.mem_singleton.1 hpiece] at hc
        rwa [List.intercalate_singleton]
      · rw [List.intercalate_cons_of_ne_nil hrest]
        rcases List.mem_cons.1 hpiece with rfl | hpiece
        · simp [hc]
        · simp [ih hpiece]
  have hslash : ("/" : String).toList = ['/'] := rfl
  rw [text_of_parts (List.ne_nil_of_mem hname), String.toList_append, String.toList_intercalate, hslash]
  exact List.mem_append_right _ (main (List.mem_map_of_mem hname) hc)

/-- The names of a text are those of its path, with an empty one for each slash in front. -/
theorem names_text {p : Path} (hp : p.WellFormed) (hne : p.parts ≠ []) :
    ∃ empties, (∀ name ∈ empties, name = "") ∧ names p.text = empties ++ p.parts := by
  have hparts := names_intercalate hne fun name hm => (hp.parts name hm).2.2
  rw [text_of_parts hne]
  rcases hp.anchor with h | h | h
  · exact ⟨[], by simp, by rw [h, String.empty_append, hparts]; rfl⟩
  · exact ⟨[""], by simp, by rw [h, names_slash, hparts]; rfl⟩
  · refine ⟨["", ""], by simp, ?_⟩
    rw [h, show "//" = "/" ++ "/" from rfl, String.append_assoc, names_slash, names_slash, hparts]
    rfl

/-- A text with a slash at its end has an empty name there. -/
theorem getLast?_names {text : String} (h : text.toList.getLast? = some '/') :
    (names text).getLast? = some "" := by
  obtain ⟨front, hfront⟩ := List.getLast?_eq_some_iff.1 h
  rw [names, hfront, List.splitOn_append_cons_self, List.map_append, List.splitOn_nil, List.getLast?_append]
  rfl

theorem steps_text {p : Path} (hp : p.WellFormed) (hne : p.parts ≠ []) : steps p.text = p.parts := by
  obtain ⟨empties, hempty, hnames⟩ := names_text hp hne
  -- A slash at the end would add a dot to the steps.
  have hlast : p.text.toList.getLast? ≠ some '/' := by
    intro h
    have hend := getLast?_names h
    rw [hnames, List.getLast?_append_of_ne_nil _ hne] at hend
    exact (hp.parts "" (List.mem_of_getLast? hend)).1 rfl
  have hnone : empties.filter (· ≠ "") = [] := List.filter_eq_nil_iff.2 fun name hm => by simp [hempty name hm]
  rw [steps, if_neg hlast, hnames, List.filter_append, filter_parts hp, hnone]
  rfl

theorem steps_text_of_nil {p : Path} (hp : p.WellFormed) (hnil : p.parts = []) : steps p.text = ["."] := by
  rcases hp.eq_of_nil hnil with rfl | rfl | rfl
  · decide
  · decide
  · decide

/-- A text that starts with a slash has an empty name there. -/
theorem head?_names {text : String} (h : isAbsolute text) : (names text).head? = some "" := by
  obtain ⟨rest, hrest⟩ := List.head?_eq_some_iff.1 (beq_iff_eq.1 h)
  rw [names, show text.toList = [] ++ '/' :: rest from hrest, List.splitOn_append_cons_self]
  rfl

theorem isAbsolute_text {p : Path} (hp : p.WellFormed) : isAbsolute p.text = !decide (p.anchor = "") := by
  by_cases hne : p.parts = []
  · rcases hp.eq_of_nil hne with rfl | rfl | rfl
    · rfl
    · rfl
    · rfl
  · obtain ⟨anchor, parts⟩ := p
    have hparts := names_intercalate hne fun name hm => (hp.parts name hm).2.2
    rw [text_of_parts hne]
    rcases hp.anchor with h | h | h
    · obtain rfl : anchor = "" := h
      rw [String.empty_append, decide_eq_true rfl, Bool.not_true, Bool.eq_false_iff]
      intro habs
      have hhead := head?_names habs
      rw [hparts] at hhead
      exact (hp.parts "" (List.mem_of_mem_head? hhead)).1 rfl
    · obtain rfl : anchor = "/" := h
      simp [isAbsolute]
    · obtain rfl : anchor = "//" := h
      simp [isAbsolute]

/-- The text of a path goes on, behind a slash, in the text of a path below it. -/
theorem text_below {p : Path} {parts : List String} (hne : p.parts ≠ []) (hne' : parts ≠ []) :
    Path.text { p with parts := p.parts ++ parts } = p.text ++ "/" ++ String.intercalate "/" parts := by
  rw [text_of_parts (by simp [hne]), text_of_parts hne, String.intercalate_append_of_ne_nil hne hne']
  simp only [String.append_assoc]

end JniSignatures.Files
