import Mathlib
import JniSignatures.Proofs.Files.Creating
import JniSignatures.Proofs.Script.Course
import JniSignatures.Proofs.Script.Options
/-!
# How a failure is told

A failure of the pass is told by a notice and by the error file. Nothing that is said about the arguments is a
notice (`Options.not_isNotice_of_ofArgs`). The error file is written exactly if it can be
(`writeError_returns_iff`), and no file of another name is altered (`content_toldTree`). Its last line is the
failure's, but if there is a surrogate in the message the file is left empty (`tells_account`).
-/

namespace JniSignatures

open Files (Content FileM Location Tree)

/-! ## Options -/

namespace Options

variable {o : Options} {key value arg line : String}

theorem not_isNotice_of_set (h : (o.set key value).2 = some line) : ¬ IsNotice line := by
  unfold set at h
  split_ifs at h
  · cases hpolicy : Policy.ofName? (Text.lower value) with
    | some policy =>
      rw [hpolicy] at h
      cases h
    | none =>
      rw [hpolicy] at h
      cases h
      rw [String.append_assoc, String.append_assoc, Text.ofString_append]
      exact not_isNotice_append (by decide) _
  · cases h
    rw [Text.ofString_append]
    exact not_isNotice_append (by decide) _

theorem not_isNotice_of_step (h : (o.step arg).2 = some line) : ¬ IsNotice line := by
  unfold step at h
  split_ifs at h
  cases hsplit : split? arg with
  | none =>
    rw [hsplit] at h
    cases h
  | some entry =>
    rw [hsplit] at h
    exact not_isNotice_of_set h

/-- What is said about the arguments is no notice. -/
theorem not_isNotice_of_ofArgs (args : List String) : ∀ line ∈ (ofArgs args).2, ¬ IsNotice line := by
  unfold ofArgs
  generalize initial = o
  induction args generalizing o with
  | nil => exact List.forall_mem_nil _
  | cons arg rest ih =>
    refine List.forall_mem_append.2 ⟨fun line hm => ?_, ih _⟩
    exact not_isNotice_of_step (Option.mem_toList.1 hm)

end Options

/-! ## The last line of an account -/

namespace Text

/-- The last line of a text is what follows its last line feed but one. -/
theorem lastLine_concat {line : List Char} (hne : line ≠ []) (h : '\n' ∉ line) {body : List Char}
    (hbody : body = [] ∨ body.getLast? = some '\n') : lastLine (body ++ line ++ ['\n']) = line := by
  have hhead : ∀ c ∈ line, (c == '\n') = false ∧ (c != '\n') = true := by
    intro c hc
    have hc : c ≠ '\n' := by
      rintro rfl
      exact h hc
    simp [hc]
  have hdrop : (body ++ line ++ ['\n']).reverse.dropWhile (· == '\n') = line.reverse ++ body.reverse := by
    rw [List.reverse_concat, List.dropWhile_cons_of_pos (by rfl), List.reverse_append]
    obtain ⟨c, rest, hrest⟩ := List.exists_cons_of_ne_nil (List.reverse_ne_nil_iff.2 hne)
    have hc : c ∈ line := List.mem_reverse.1 (hrest ▸ List.mem_cons_self)
    rw [hrest, List.cons_append, List.dropWhile_cons_of_neg (by simp [(hhead c hc).1])]
  have htake : (line.reverse ++ body.reverse).takeWhile (· != '\n') = line.reverse := by
    rw [List.takeWhile_append_of_pos fun c hc => (hhead c (List.mem_reverse.1 hc)).2]
    rcases hbody with rfl | hlast
    · simp
    · obtain ⟨front, rfl⟩ := List.getLast?_eq_some_iff.1 hlast
      rw [List.reverse_concat, List.takeWhile_cons_of_neg (by decide), List.append_nil]
  rw [lastLine, hdrop, htake, List.reverse_reverse]

end Text

namespace Script

/-! ## The error file -/

/-- A file tells of a failure. A message that is a string can be written; one with a surrogate in it cannot. -/
structure Tells (content : Content) (failure : Failure) : Prop where
  /-- The last line names the kind and then the message, if that is a single line. -/
  named : ∀ message : String, failure.message = message → ∃ text, content = .ofText text ∧
    (message ≠ "" → '\n' ∉ message.toList →
      Text.lastLine text = (failure.kind.fullName ++ ": " ++ message).toList)
  /-- What cannot be written leaves the file empty. -/
  emptied : ¬ failure.message.IsString → content = .ofText []

theorem lines_ended (lines : List String) :
    lines.flatMap (fun line => line.toList ++ ['\n']) = [] ∨
      (lines.flatMap fun line => line.toList ++ ['\n']).getLast? = some '\n' := by
  rcases List.eq_nil_or_concat lines with rfl | ⟨front, last, rfl⟩
  · exact .inl rfl
  · refine .inr ?_
    rw [List.concat_eq_append, List.flatMap_append, List.flatMap_singleton, ← List.append_assoc, List.getLast?_concat]

theorem not_mem_fullName (kind : Kind) : '\n' ∉ kind.fullName.toList := by
  cases kind with
  | other name single => exact single
  | _ => decide

/-- The account of a failure whose line is a string. -/
theorem chars?_account (trace : Text → List String) {failure : Failure} {line : String} (h : failure.line = line) :
    (account trace failure).chars? =
      some ((trace line).flatMap (fun line => line.toList ++ ['\n']) ++ line.toList ++ ['\n']) := by
  rw [Text.chars?_eq_some_iff, account, h]
  simp [List.flatMap_map, List.map_flatMap]

theorem line_of_message {failure : Failure} {message : String} (hmessage : failure.message = message)
    (hne : message ≠ "") : failure.line = (failure.kind.fullName ++ ": " ++ message : String) := by
  rw [Failure.line, Kind.line, hmessage, if_neg fun h => hne (Text.ofString_injective h)]
  simp

/-- An account can be written exactly if the message can. -/
theorem isString_account_iff {trace : Text → List String} {failure : Failure} :
    (account trace failure).IsString ↔ failure.message.IsString := by
  by_cases hempty : failure.message = ""
  · have hline : failure.line = failure.kind.fullName := if_pos hempty
    refine iff_of_true (Text.isSome_chars?_iff.1 ?_) ⟨"", hempty⟩
    rw [chars?_account trace hline, Option.isSome_some]
  constructor
  · intro h
    rw [Text.isString_iff] at h ⊢
    intro p hp
    have hline : failure.line = failure.kind.fullName ++ ": " ++ failure.message := if_neg hempty
    exact h p (by simp [account, hline, hp])
  · rintro ⟨message, hmessage⟩
    rw [hmessage, Text.ofString_inj] at hempty
    rw [← Text.isSome_chars?_iff, chars?_account trace (line_of_message hmessage hempty), Option.isSome_some]

/-- Wherever the failure arose, the last line of its account is its own, if that can be written. -/
theorem tells_account (trace : Text → List String) (failure : Failure) :
    Tells (errorContent trace failure) failure := by
  constructor
  · intro message hmessage
    refine ⟨_, rfl, fun hne hsingle => ?_⟩
    rw [chars?_account trace (line_of_message hmessage hne), Option.getD_some]
    apply Text.lastLine_concat _ _ (lines_ended _)
    · simp
    · simp [not_mem_fullName, hsingle]
  · intro hmessage
    rw [errorContent, Option.not_isSome_iff_eq_none.1 fun h =>
      hmessage (isString_account_iff.1 (Text.isSome_chars?_iff.1 h)), Option.getD_none]

section ErrorFile

variable {trace : Text → List String} {directory : String} {t : Tree}

/-- If telling the failure returns, the directory has been made and the file written. -/
theorem exec_writeError_eq_ok {failure : Failure} {written : Tree}
    (h : exec (writeError trace directory failure) t = (.ok (), written)) :
    ∃ made, exec (FileM.makeDirectories directory) t = (.ok (), made) ∧
      made.write (Files.joinText directory errorFileName) (errorContent trace failure) = .ok written := by
  obtain ⟨_, made, hmade, hchange⟩ := exec_bind_eq_ok h
  rw [FileM.exec_change] at hchange
  cases hw : made.write (Files.joinText directory errorFileName) (errorContent trace failure) with
  | error fault =>
    rw [hw] at hchange
    cases hchange
  | ok next =>
    rw [hw] at hchange
    cases hchange
    exact ⟨made, hmade, hw⟩

/-- The error file is written exactly if it can be, at most after more directories have been made. -/
theorem writeError_returns_iff (hne : directory ≠ "") (failure : Failure) :
    (exec (writeError trace directory failure) t).1 = .ok () ↔
      t.Creatable (Files.joinText directory errorFileName) := by
  constructor
  · intro h
    have hrun : exec (writeError trace directory failure) t =
        (.ok (), (exec (writeError trace directory failure) t).2) := by rw [← h]
    obtain ⟨made, hmade, hw⟩ := exec_writeError_eq_ok hrun
    exact ⟨made, _, _, ((FileM.makeDirectories_widens directory).of_exec hmade).within, hw⟩
  · intro h
    obtain ⟨made, hmade, hwrite⟩ := FileM.exec_makeDirectories_of_creatable hne (by decide) h
    obtain ⟨written, hwritten⟩ := hwrite (errorContent trace failure)
    unfold writeError
    rw [exec_bind_ok hmade, FileM.exec_change, hwritten]

theorem writeError_alters (trace : Text → List String) (directory : String) (failure : Failure) :
    Moves (Tree.Alters fun place _ => place.getLast? = some errorFileName) (writeError trace directory failure) := by
  refine Moves.bind (FileM.makeDirectories_moves fun _ _ _ _ => Tree.alters_of_makeDirectory) fun _ => ?_
  refine FileM.change_moves fun _ _ => Tree.alters_of_write fun place hlast => ?_
  rw [Files.last_step_joinText directory (by decide)] at hlast
  exact hlast

theorem toldTree_alters (trace : Text → List String) (options : Options) (failure : Failure) (t : Tree) :
    Tree.Alters (fun place _ => place.getLast? = some errorFileName) t (toldTree trace options failure t) := by
  unfold toldTree
  cases options.reportDirectory with
  | none => exact refl t
  | some directory => exact writeError_alters trace directory failure t

/-- Telling a failure alters no file of another name. -/
theorem content_toldTree (trace : Text → List String) (options : Options) (failure : Failure) (t : Tree)
    {place : Location} (hname : place.getLast? ≠ some errorFileName) :
    (toldTree trace options failure t).content? place = t.content? place := by
  rcases toldTree_alters trace options failure t place with hsame | hlast
  · exact hsame
  · exact absurd hlast hname

theorem holds_toldTree {options : Options} (hdirectory : options.reportDirectory = some directory)
    (hne : directory ≠ "") (failure : Failure) (h : t.Creatable (Files.joinText directory errorFileName)) :
    ∃ place, (toldTree trace options failure t).Holds (Files.joinText directory errorFileName) place
      (errorContent trace failure) := by
  have hrun : exec (writeError trace directory failure) t =
      (.ok (), (exec (writeError trace directory failure) t).2) := by
    rw [← (writeError_returns_iff hne failure).2 h]
  obtain ⟨made, -, hw⟩ := exec_writeError_eq_ok hrun
  obtain ⟨place, hholds, -⟩ := Tree.holds_of_write hw
  rw [toldTree, hdirectory]
  exact ⟨place, hholds⟩

end ErrorFile

end Script

end JniSignatures
