import Mathlib
import JniSignatures.Script.Options
/-!
# Reading options

A text is cut at its first equals sign, so a key without one comes back as it was, and so does the value
behind it, whatever that holds (`split?_append`). Options that are set stay set: arguments with other keys go
by them without a trace (`stepAll_withPaths`).
-/

namespace JniSignatures

/-! ## Trimming -/

/-- A text that neither starts nor ends with a blank is left as it is. -/
theorem Text.trim_eq_self {s : String} (hfirst : ∀ c ∈ s.toList.head?, isBlank c = false)
    (hlast : ∀ c ∈ s.toList.getLast?, isBlank c = false) : trim s = s := by
  have hdrop : ∀ {cs : List Char}, (∀ c ∈ cs.head?, isBlank c = false) → cs.dropWhile isBlank = cs := by
    intro cs h
    cases cs with
    | nil => rfl
    | cons c cs =>
      apply List.dropWhile_cons_of_neg
      simp [h c rfl]
  unfold trim
  rw [hdrop hfirst, hdrop, List.reverse_reverse, String.ofList_toList]
  rw [List.head?_reverse]
  exact hlast

namespace Options

variable {o : Options} {arg key value directory : String} {args : List String}

/-! ## Single arguments -/

theorem split?_append (h : '=' ∉ key.toList) (value : String) : split? (key ++ "=" ++ value) = some (key, value) := by
  have hkey : (key ++ "=" ++ value).toList.takeWhile (· != '=') = key.toList := by
    rw [String.append_assoc, String.toList_append, List.takeWhile_append_of_pos]
    · simp
    · intro c hc
      have : c ≠ '=' := by
        rintro rfl
        exact h hc
      simpa using this
  unfold split?
  simp only [hkey]
  rw [if_pos (by simp)]
  simp

theorem split?_eq_none (h : '=' ∉ arg.toList) : split? arg = none := by
  have hkey : arg.toList.takeWhile (· != '=') = arg.toList := by
    rw [List.takeWhile_eq_self_iff]
    intro c hc
    have : c ≠ '=' := by
      rintro rfl
      exact h hc
    simpa using this
  unfold split?
  simp only [hkey]
  rw [if_neg (by omega)]

/-- No call for help has an equals sign. -/
theorem isHelp_of_split? (h : split? arg = some (key, value)) : isHelp arg = false := by
  rw [Bool.eq_false_iff]
  intro hhelp
  have hshort : split? "-h" = none := by decide
  have hlong : split? "--help" = none := by decide
  unfold isHelp at hhelp
  rcases Bool.or_eq_true_iff.1 hhelp with he | he
  · rw [beq_iff_eq.1 he, hshort] at h
    cases h
  · rw [beq_iff_eq.1 he, hlong] at h
    cases h

theorem step_of_split? (h : split? arg = some (key, value)) : o.step arg = o.set key (Text.trim value) := by
  unfold step
  rw [isHelp_of_split? h, h]
  rfl

/-! ## The directory for the report -/

theorem reportDirectory_of_step (h : (o.step arg).1.reportDirectory = some directory) :
    o.reportDirectory = some directory ∨ directory ≠ "" := by
  have hset : ∀ {key value}, (o.set key value).1.reportDirectory = some directory →
      o.reportDirectory = some directory ∨ directory ≠ "" := by
    intro key value h
    unfold set at h
    split_ifs at h
    · exact .inl h
    · have hvalue : nonEmpty value = some directory := h
      unfold nonEmpty at hvalue
      split_ifs at hvalue with hne
      cases hvalue
      exact .inr hne
    · exact .inl h
    · cases hpolicy : Policy.ofName? (Text.lower value) <;> rw [hpolicy] at h <;> exact .inl h
    · exact .inl h
  unfold step at h
  split_ifs at h
  · exact .inl h
  · cases hsplit : split? arg with
    | none =>
      rw [hsplit] at h
      exact .inl h
    | some entry =>
      rw [hsplit] at h
      exact hset h

/-- The directory for the report is never the empty text. -/
theorem reportDirectory_ne_empty (h : (ofArgs args).1.reportDirectory = some directory) :
    directory ≠ "" := by
  have hall : ∀ (args : List String) (o : Options), (o.stepAll args).1.reportDirectory = some directory →
      o.reportDirectory = some directory ∨ directory ≠ "" := by
    intro args
    induction args with
    | nil => exact fun o h => .inl h
    | cons arg rest ih =>
      intro o h
      rcases ih _ h with hstep | hne
      · exact reportDirectory_of_step hstep
      · exact .inr hne
  rcases hall args initial h with hinitial | hne
  · cases hinitial
  · exact hne

/-! ## Arguments for other options -/

/-- The options with a methods file and a directory for the report. -/
def withPaths (o : Options) (methodsPath reportDirectory : String) : Options :=
  { o with methodsPath := some methodsPath, reportDirectory := some reportDirectory }

/-- The argument sets an option, and neither the methods file nor the directory for the report. -/
def SetsOther (arg : String) : Prop :=
  ∃ key value, split? arg = some (key, value) ∧ key ≠ "methods" ∧ key ≠ "report_dir"

theorem set_withPaths (hmethods : key ≠ "methods") (hdirectory : key ≠ "report_dir")
    (value methodsPath reportDirectory : String) : (o.withPaths methodsPath reportDirectory).set key value =
      ((o.set key value).1.withPaths methodsPath reportDirectory, (o.set key value).2) := by
  unfold set
  rw [if_neg hmethods, if_neg hmethods, if_neg hdirectory, if_neg hdirectory]
  split_ifs
  · rfl
  · cases Policy.ofName? (Text.lower value) <;> rfl
  · rfl

theorem set_help : (o.set key value).1.help = o.help := by
  unfold set
  split_ifs
  · rfl
  · rfl
  · rfl
  · cases Policy.ofName? (Text.lower value) <;> rfl
  · rfl

/-- The two paths do not matter to other arguments, nor these to them. -/
theorem stepAll_withPaths (h : ∀ arg ∈ args, SetsOther arg) (o : Options) (methodsPath reportDirectory : String) :
    (o.withPaths methodsPath reportDirectory).stepAll args =
      ((o.stepAll args).1.withPaths methodsPath reportDirectory, (o.stepAll args).2) := by
  induction args generalizing o with
  | nil => rfl
  | cons arg rest ih =>
    obtain ⟨⟨key, value, hsplit, hmethods, hdirectory⟩, hrest⟩ := List.forall_mem_cons.1 h
    unfold stepAll
    simp only [step_of_split? hsplit, set_withPaths hmethods hdirectory]
    rw [ih hrest]

/-- Only a call for help calls for help. -/
theorem stepAll_help (h : ∀ arg ∈ args, SetsOther arg) (o : Options) : (o.stepAll args).1.help = o.help := by
  induction args generalizing o with
  | nil => rfl
  | cons arg rest ih =>
    obtain ⟨⟨key, value, hsplit, -, -⟩, hrest⟩ := List.forall_mem_cons.1 h
    unfold stepAll
    simp only [step_of_split? hsplit]
    rw [ih hrest, set_help]

/-- A methods file and a directory for the report, in front of other arguments, are read as they are. -/
theorem ofArgs_paths {methodsPath reportDirectory : String} (hhelp : isHelp methodsPath = false)
    (hmethods : '=' ∉ methodsPath.toList) (hnonempty : reportDirectory ≠ "")
    (htrim : Text.trim reportDirectory = reportDirectory) (hargs : ∀ arg ∈ args, SetsOther arg) :
    ofArgs (methodsPath :: ("report_dir=" ++ reportDirectory) :: args) =
      ({ (ofArgs args).1 with methodsPath := some methodsPath, reportDirectory := some reportDirectory, help := false },
        (ofArgs args).2) := by
  have hfirst : initial.step methodsPath = ({ initial with methodsPath := some methodsPath }, none) := by
    unfold step
    rw [hhelp, split?_eq_none hmethods]
    rfl
  have hkey : '=' ∉ "report_dir".toList := by decide
  have hsplit : split? ("report_dir=" ++ reportDirectory) = some ("report_dir", reportDirectory) :=
    split?_append hkey reportDirectory
  have hsecond : ({ initial with methodsPath := some methodsPath } : Options).step ("report_dir=" ++ reportDirectory) =
      (initial.withPaths methodsPath reportDirectory, none) := by
    rw [step_of_split? hsplit, htrim, set, if_neg (by decide), if_pos rfl, nonEmpty, if_neg hnonempty]
    rfl
  have hend : (ofArgs args).1.help = false := stepAll_help hargs initial
  have hpaths := stepAll_withPaths hargs initial methodsPath reportDirectory
  unfold ofArgs at hend ⊢
  rw [stepAll, hfirst]
  simp only [stepAll, hsecond, hpaths]
  simp [withPaths, hend]

end Options

end JniSignatures
