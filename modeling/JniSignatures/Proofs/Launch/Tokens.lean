import Mathlib
import JniSignatures.Launch.Arguments
import JniSignatures.Proofs.Script.Precedence
/-!
# The launcher's arguments as tokens

From the left to the right, a list of arguments falls into tokens: the option for the output directory takes the
next argument with it, whatever that is, and every other argument is a token by itself. How the launcher's
reading ends can be told from the tokens alone. `Ends` has one case for each way, and `ends_ofList` says that the
reading ends in one of them. So options may stand anywhere between the two paths, as long as they keep their own
order (`ofList_tokens`).
-/

namespace JniSignatures.Launch

/-! ## Tokens -/

/-- Arguments that belong together. -/
inductive Token where
  | help (arg : String)
  /-- The option for the output directory, and its value. -/
  | output (arg value : String)
  /-- The option for the output directory, with no argument behind it. -/
  | dangling (arg : String)
  /-- An argument with an equals sign. -/
  | setting (arg : String)
  | positional (arg : String)
  deriving DecidableEq

namespace Token

/-- The arguments of a token. -/
def words : Token → List String
  | .output arg value => [arg, value]
  | .help arg | .dangling arg | .setting arg | .positional arg => [arg]

def isPositional : Token → Bool
  | .positional _ => true
  | _ => false

def positional? : Token → Option String
  | .positional arg => some arg
  | _ => none

def output? : Token → Option String
  | .output _ value => some value
  | _ => none

/-- What a token says about the analysis. -/
def analyze? : Token → Option Bool
  | .setting arg => (Options.split? arg).bind fun (key, value) =>
      if key = "analyze" then some (Arguments.isYes value) else none
  | _ => none

/-- The argument that a token hands on to the script. -/
def handedOn? : Token → Option String
  | .setting arg => if Options.sets "analyze" arg then none else some arg
  | _ => none

/-- The token lacks its value. -/
def endsOpen : Token → Bool
  | .dangling _ => true
  | _ => false

/-- The token ends the reading wherever it stands. -/
def stops : Token → Bool
  | .help _ | .dangling _ => true
  | _ => false

end Token

/-- The tokens of a list of arguments. -/
def tokens : List String → List Token
  | [] => []
  | arg :: rest =>
    if arg = "-h" ∨ arg = "--help" then .help arg :: tokens rest
    else if arg = "-o" ∨ arg = "--output" then
      match rest with
      | [] => [.dangling arg]
      | value :: rest => .output arg value :: tokens rest
    else if '=' ∈ arg.toList then .setting arg :: tokens rest
    else .positional arg :: tokens rest

/-! ## What tokens say -/

def positionals (ts : List Token) : List String :=
  ts.filterMap Token.positional?

/-- All tokens but the positionals. -/
def options (ts : List Token) : List Token :=
  ts.filter fun t => !t.isPositional

/-- The value of the last option for the output directory. -/
def outDirectory (ts : List Token) : String :=
  (ts.filterMap Token.output?).getLast?.getD "out"

/-- What the last token that sets it says about the analysis. -/
def analyzes (ts : List Token) : Bool :=
  (ts.filterMap Token.analyze?).getLast?.getD true

/-- The arguments for the script. -/
def handedOn (ts : List Token) : List String :=
  ts.filterMap Token.handedOn?

/-- There is a call for help with no more than two positionals before it. -/
def CallsForHelp (ts : List Token) : Prop :=
  ∃ before arg after, ts = before ++ .help arg :: after ∧ (positionals before).length ≤ 2

/-- The last token is the option for the output directory, without a value. -/
def EndsOpen (ts : List Token) : Prop :=
  ∃ arg, ts.getLast? = some (.dangling arg)

/-- There are too many or too few positionals, one of them is empty, or a value is missing. -/
def IsMisused (ts : List Token) : Prop :=
  3 ≤ (positionals ts).length ∨ EndsOpen ts ∨ (positionals ts).length < 2 ∨ "" ∈ positionals ts

/-- How the reading of tokens ends. -/
inductive Ends (ts : List Token) : Except Exit Arguments → Prop where
  | help (calls : CallsForHelp ts) : Ends ts (.error ⟨0, usage⟩)
  | surplus {arg : String} (calls : ¬ CallsForHelp ts) (third : (positionals ts)[2]? = some arg) :
    Ends ts (.error ⟨1, ("Unexpected argument: " ++ arg) :: usage⟩)
  | dangling (calls : ¬ CallsForHelp ts) (last : EndsOpen ts) :
    Ends ts (.error ⟨1, "Missing value for -o/--output." :: usage⟩)
  | lacking (calls : ¬ CallsForHelp ts) (few : (positionals ts).length < 2 ∨ "" ∈ positionals ts) :
    Ends ts (.error ⟨1, usage⟩)
  | complete {binary methods : String} (calls : ¬ CallsForHelp ts) (last : ¬ EndsOpen ts)
      (both : positionals ts = [binary, methods]) (hbinary : binary ≠ "") (hmethods : methods ≠ "") :
    Ends ts (.ok ⟨binary, methods, outDirectory ts, analyzes ts, handedOn ts⟩)

/-! ## Reading token by token -/

/-- What has been read after the given tokens. -/
def draft (ts : List Token) : Arguments.Draft :=
  ⟨(positionals ts)[0]?, (positionals ts)[1]?, outDirectory ts, analyzes ts, handedOn ts⟩

section Reading

variable {ts before after : List Token} {args : List String} {arg value : String}

theorem not_callsForHelp (h : ∀ t ∈ ts, t.stops = false) : ¬ CallsForHelp ts := by
  rintro ⟨before, arg, after, rfl, -⟩
  have := h (.help arg) (by simp)
  cases this

/-- A call for help behind a third positional comes too late. -/
theorem not_callsForHelp_append (h : ∀ t ∈ before, t.stops = false) (hmany : 2 < (positionals before).length) :
    ¬ CallsForHelp (before ++ after) := by
  rintro ⟨front, arg, back, heq, hfew⟩
  rcases List.append_eq_append_iff.1 heq with ⟨middle, rfl, -⟩ | ⟨middle, rfl, hback⟩
  · rw [positionals, List.filterMap_append, List.length_append] at hfew
    rw [positionals] at hmany
    omega
  · cases middle with
    | nil =>
      rw [List.append_nil] at hmany
      omega
    | cons t middle =>
      rw [List.cons_append, List.cons.injEq] at hback
      have := h t (by simp)
      rw [← hback.1] at this
      cases this

theorem not_endsOpen (h : ∀ t ∈ ts, t.stops = false) : ¬ EndsOpen ts := by
  rintro ⟨arg, hlast⟩
  have := h _ (List.mem_of_getLast? hlast)
  cases this

/-- An open end is no call for help. -/
theorem not_callsForHelp_dangling (h : ∀ t ∈ ts, t.stops = false) (arg : String) :
    ¬ CallsForHelp (ts ++ [.dangling arg]) := by
  rintro ⟨before, other, after, heq, -⟩
  have hmem : Token.help other ∈ ts ++ [.dangling arg] := by
    rw [heq]
    simp
  rcases List.mem_append.1 hmem with hmem | hmem
  · cases h _ hmem
  · cases List.mem_singleton.1 hmem

theorem isOutput_iff : Arguments.isOutput arg = true ↔ arg = "-o" ∨ arg = "--output" := by
  simp [Arguments.isOutput]

/-- One more token that lets the reading go on. -/
theorem stops_concat {t : Token} (h : ∀ t ∈ ts, t.stops = false) (ht : t.stops = false) :
    ∀ t' ∈ ts ++ [t], t'.stops = false := by
  intro t' hmem
  rcases List.mem_append.1 hmem with hmem | hmem
  · exact h t' hmem
  · rw [List.mem_singleton.1 hmem]
    exact ht

/-- What one more token adds to what has been read. -/
theorem draft_concat (ts : List Token) (t : Token) : draft (ts ++ [t]) =
    { binary := (positionals ts ++ t.positional?.toList)[0]?
      methods := (positionals ts ++ t.positional?.toList)[1]?
      outDirectory := t.output?.getD (outDirectory ts)
      analyze := t.analyze?.getD (analyzes ts)
      scriptArgs := handedOn ts ++ t.handedOn?.toList } := by
  have hlast : ∀ {α : Type} (f : Token → Option α), (ts ++ [t]).filterMap f = ts.filterMap f ++ (f t).toList := by
    intro α f
    rw [List.filterMap_append]
    cases hf : f t <;> simp [hf]
  simp only [draft, positionals, outDirectory, analyzes, handedOn, hlast]
  cases t.output? <;> cases t.analyze? <;> simp

theorem draft_concat_output (ts : List Token) (arg value : String) :
    draft (ts ++ [.output arg value]) = { draft ts with outDirectory := value } := by
  rw [draft_concat]
  simp [draft, Token.positional?, Token.output?, Token.analyze?, Token.handedOn?]

theorem draft_concat_setting {key : String} (h : Options.split? arg = some (key, value)) (ts : List Token) :
    draft (ts ++ [.setting arg]) = (draft ts).setOption arg key value := by
  rw [draft_concat]
  unfold Arguments.Draft.setOption
  split_ifs with hkey <;>
    simp [draft, Token.positional?, Token.output?, Token.analyze?, Token.handedOn?, Options.sets, h, hkey]

theorem positionals_concat (ts : List Token) (t : Token) :
    positionals (ts ++ [t]) = positionals ts ++ t.positional?.toList := by
  cases t <;> simp [positionals, Token.positional?]

/-- A positional is taken if there are less than two before it. -/
theorem addPositional_draft (hfew : (positionals ts).length < 2) (arg : String) :
    (draft ts).addPositional arg = .ok (draft (ts ++ [.positional arg])) := by
  rw [draft_concat]
  unfold Arguments.Draft.addPositional draft
  generalize positionals ts = given at hfew
  match given, hfew with
  | [], _ => simp [Token.positional?, Token.output?, Token.analyze?, Token.handedOn?]
  | [binary], _ => simp [Token.positional?, Token.output?, Token.analyze?, Token.handedOn?]

theorem addPositional_draft_full (hfull : (positionals ts).length = 2) (arg : String) :
    (draft ts).addPositional arg = .error ⟨1, ("Unexpected argument: " ++ arg) :: usage⟩ := by
  unfold Arguments.Draft.addPositional draft
  generalize positionals ts = given at hfull
  match given, hfull with
  | [binary, methods], _ => rfl

/-- All arguments have been read. -/
theorem ends_finish (h : ∀ t ∈ ts, t.stops = false) (hfew : (positionals ts).length ≤ 2) :
    Ends ts (draft ts).finish := by
  have hcalls := not_callsForHelp h
  cases hgiven : positionals ts with
  | nil =>
    have hfinish : (draft ts).finish = .error ⟨1, usage⟩ := by simp [Arguments.Draft.finish, draft, hgiven]
    rw [hfinish]
    exact .lacking hcalls (.inl (by simp [hgiven]))
  | cons binary rest =>
    cases rest with
    | nil =>
      have hfinish : (draft ts).finish = .error ⟨1, usage⟩ := by simp [Arguments.Draft.finish, draft, hgiven]
      rw [hfinish]
      exact .lacking hcalls (.inl (by simp [hgiven]))
    | cons methods rest =>
      have hrest : rest = [] := by
        rw [hgiven] at hfew
        exact List.eq_nil_of_length_eq_zero (by simpa using hfew)
      subst hrest
      by_cases hempty : binary = "" ∨ methods = ""
      · have hfinish : (draft ts).finish = .error ⟨1, usage⟩ := by
          simp [Arguments.Draft.finish, draft, hgiven, hempty]
        rw [hfinish]
        refine .lacking hcalls (.inr ?_)
        rcases hempty with rfl | rfl <;> simp [hgiven]
      · have hfinish : (draft ts).finish = .ok ⟨binary, methods, outDirectory ts, analyzes ts, handedOn ts⟩ := by
          simp [Arguments.Draft.finish, draft, hgiven, hempty]
        rw [hfinish]
        push Not at hempty
        exact .complete hcalls (not_endsOpen h) hgiven hempty.1 hempty.2

/-- The reading ends as all tokens say, wherever it has come to. -/
theorem ends_read (args : List String) (before : List Token) (h : ∀ t ∈ before, t.stops = false)
    (hfew : (positionals before).length ≤ 2) :
    Ends (before ++ tokens args) (((draft before).read args).bind Arguments.Draft.finish) := by
  -- Along the tokens: what has been read stays the draft of the tokens before, none of which has ended the reading.
  fun_induction tokens args generalizing before with
  | case1 =>
    rw [List.append_nil]
    exact ends_finish h hfew
  | case2 arg rest hhelp ih =>
    have hread : (draft before).read (arg :: rest) = .error ⟨0, usage⟩ := by
      unfold Arguments.Draft.read
      rw [if_pos (Options.isHelp_iff.2 hhelp)]
    rw [hread]
    exact .help ⟨before, arg, tokens rest, rfl, hfew⟩
  | case3 arg hhelp houtput =>
    have hread : (draft before).read [arg] = .error ⟨1, "Missing value for -o/--output." :: usage⟩ := by
      unfold Arguments.Draft.read
      rw [if_neg (mt Options.isHelp_iff.1 hhelp), if_pos (isOutput_iff.2 houtput)]
    rw [hread]
    exact .dangling (not_callsForHelp_dangling h arg) ⟨arg, List.getLast?_concat⟩
  | case4 arg hhelp houtput value rest ih =>
    have hread : (draft before).read (arg :: value :: rest) = (draft (before ++ [.output arg value])).read rest := by
      conv_lhs => unfold Arguments.Draft.read
      rw [if_neg (mt Options.isHelp_iff.1 hhelp), if_pos (isOutput_iff.2 houtput), draft_concat_output]
    rw [hread, List.append_cons]
    refine ih _ (stops_concat h rfl) ?_
    simpa [positionals_concat, Token.positional?] using hfew
  | case5 arg rest hhelp houtput hsetting ih =>
    obtain ⟨key, value, hkey, hsplit⟩ := Options.exists_setting hsetting
    have hsplit : Options.split? arg = some (key, value) := Options.split?_eq_some_iff.2 ⟨hkey, hsplit⟩
    have hread : (draft before).read (arg :: rest) = (draft (before ++ [.setting arg])).read rest := by
      conv_lhs => unfold Arguments.Draft.read
      rw [if_neg (mt Options.isHelp_iff.1 hhelp), if_neg (mt isOutput_iff.1 houtput), hsplit,
        draft_concat_setting hsplit]
    rw [hread, List.append_cons]
    refine ih _ (stops_concat h rfl) ?_
    simpa [positionals_concat, Token.positional?] using hfew
  | case6 arg rest hhelp houtput hsetting ih =>
    have hread : (draft before).read (arg :: rest) =
        ((draft before).addPositional arg).bind fun next => next.read rest := by
      conv_lhs => unfold Arguments.Draft.read
      rw [if_neg (mt Options.isHelp_iff.1 hhelp), if_neg (mt isOutput_iff.1 houtput), Options.split?_eq_none hsetting]
      cases (draft before).addPositional arg <;> rfl
    have hconcat : positionals (before ++ [.positional arg]) = positionals before ++ [arg] :=
      positionals_concat before (.positional arg)
    rw [hread, List.append_cons]
    by_cases hfull : (positionals before).length = 2
    · rw [addPositional_draft_full hfull]
      refine .surplus (not_callsForHelp_append (stops_concat h rfl) ?_) ?_
      · simp [hconcat, hfull]
      · rw [positionals, List.filterMap_append, ← positionals, hconcat]
        simp [hfull]
    · rw [addPositional_draft (by omega)]
      refine ih _ (stops_concat h rfl) ?_
      rw [hconcat, List.length_append, List.length_singleton]
      omega

theorem ends_ofList (args : List String) : Ends (tokens args) (Arguments.ofList args) :=
  ends_read args [] (by simp) (by simp [positionals])

end Reading

/-! ## The ways in which a reading ends -/

section Ways

variable {ts ts' : List Token} {result : Except Exit Arguments} {a : Arguments}

/-- The tokens give the arguments that are read. -/
structure Gives (ts : List Token) (a : Arguments) : Prop where
  paths : positionals ts = [a.binary, a.methods]
  outDirectory : a.outDirectory = outDirectory ts
  analyze : a.analyze = analyzes ts
  scriptArgs : a.scriptArgs = handedOn ts

theorem Ends.help_iff (h : Ends ts result) : result = .error ⟨0, usage⟩ ↔ CallsForHelp ts := by
  cases h with
  | help calls => exact iff_of_true rfl calls
  | surplus calls | dangling calls | lacking calls | complete calls => exact iff_of_false (by simp) calls

theorem Ends.misuse_iff (h : Ends ts result) :
    (∃ lines, result = .error ⟨1, lines ++ usage⟩) ↔ ¬ CallsForHelp ts ∧ IsMisused ts := by
  cases h with
  | help calls => exact iff_of_false (by simp) (fun h => h.1 calls)
  | @surplus arg calls third =>
    have hmany := (List.getElem?_eq_some_iff.1 third).1
    exact iff_of_true ⟨["Unexpected argument: " ++ arg], rfl⟩ ⟨calls, .inl hmany⟩
  | dangling calls last => exact iff_of_true ⟨["Missing value for -o/--output."], rfl⟩ ⟨calls, .inr (.inl last)⟩
  | lacking calls few => exact iff_of_true ⟨[], rfl⟩ ⟨calls, .inr (.inr few)⟩
  | complete calls last both hbinary hmethods =>
    refine iff_of_false (by simp) (fun h => ?_)
    rcases h.2 with hmany | hopen | hfew | hempty
    · simp [both] at hmany
    · exact last hopen
    · simp [both] at hfew
    · simp [both, hbinary.symm, hmethods.symm] at hempty

theorem Ends.ok_iff (h : Ends ts result) :
    result = .ok a ↔ ¬ CallsForHelp ts ∧ ¬ IsMisused ts ∧ Gives ts a := by
  have hmisuse := h.misuse_iff
  cases h with
  | help calls => exact iff_of_false (by simp) (fun h => h.1 calls)
  | @surplus arg calls third =>
    have hmisused := (hmisuse.1 ⟨["Unexpected argument: " ++ arg], rfl⟩).2
    exact iff_of_false (by simp) (fun h => h.2.1 hmisused)
  | dangling calls last =>
    have hmisused := (hmisuse.1 ⟨["Missing value for -o/--output."], rfl⟩).2
    exact iff_of_false (by simp) (fun h => h.2.1 hmisused)
  | lacking calls few =>
    have hmisused := (hmisuse.1 ⟨[], rfl⟩).2
    exact iff_of_false (by simp) (fun h => h.2.1 hmisused)
  | @complete binary methods calls last both hbinary hmethods =>
    have hused : ¬ IsMisused ts := fun hmisused => by simpa using hmisuse.2 ⟨calls, hmisused⟩
    constructor
    · intro heq
      cases heq
      exact ⟨calls, hused, both, rfl, rfl, rfl⟩
    · rintro ⟨-, -, hgives⟩
      obtain ⟨hb, hm⟩ : binary = a.binary ∧ methods = a.methods := by simpa [both] using hgives.paths
      rw [hb, hm, ← hgives.outDirectory, ← hgives.analyze, ← hgives.scriptArgs]

end Ways

/-! ## Moving options -/

section Moving

variable {ts ts' : List Token} {args : List String}

/-- The same positionals and the same options, each in their order. -/
def Rearranged (ts ts' : List Token) : Prop :=
  positionals ts = positionals ts' ∧ options ts = options ts'

/-- What positionals do not say is said by the options. -/
theorem filterMap_options {α : Type} {f : Token → Option α} (h : ∀ arg, f (.positional arg) = none) (ts : List Token) :
    (options ts).filterMap f = ts.filterMap f := by
  rw [options, List.filterMap_filter]
  apply List.filterMap_congr
  intro t _
  cases t <;> simp [Token.isPositional, h]

theorem Rearranged.gives {a : Arguments} (h : Rearranged ts ts') (ha : Gives ts a) : Gives ts' a := by
  have hsame : ∀ {α : Type} {f : Token → Option α}, (∀ arg, f (.positional arg) = none) →
      ts.filterMap f = ts'.filterMap f := by
    intro α f hf
    rw [← filterMap_options hf, h.2, filterMap_options hf]
  refine ⟨h.1 ▸ ha.paths, ?_, ?_, ?_⟩
  · rw [ha.outDirectory, outDirectory, hsame (fun _ => rfl), ← outDirectory]
  · rw [ha.analyze, analyzes, hsame (fun _ => rfl), ← analyzes]
  · rw [ha.scriptArgs, handedOn, hsame (fun _ => rfl), ← handedOn]

/-- With two positionals at most no call for help comes too late. -/
theorem callsForHelp_iff (h : (positionals ts).length ≤ 2) : CallsForHelp ts ↔ ∃ arg, .help arg ∈ ts := by
  constructor
  · rintro ⟨before, arg, after, rfl, -⟩
    exact ⟨arg, by simp⟩
  · rintro ⟨arg, hmem⟩
    obtain ⟨before, after, rfl⟩ := List.append_of_mem hmem
    refine ⟨before, arg, after, rfl, ?_⟩
    rw [positionals, List.filterMap_append, List.length_append] at h
    rw [positionals]
    omega

/-- Nothing comes behind an open end. -/
theorem endsOpen_iff (args : List String) : EndsOpen (tokens args) ↔ ∃ arg, .dangling arg ∈ tokens args := by
  constructor
  · rintro ⟨arg, hlast⟩
    exact ⟨arg, List.mem_of_getLast? hlast⟩
  · rintro ⟨arg, hmem⟩
    refine ⟨arg, ?_⟩
    fun_induction tokens args with
    | case1 => cases hmem
    | case3 => simpa [eq_comm] using hmem
    | case2 _ _ _ ih | case4 _ _ _ _ _ ih | case5 _ _ _ _ _ ih | case6 _ _ _ _ _ ih =>
      have hrest := ih (by simpa using hmem)
      rw [List.getLast?_cons, hrest]
      rfl

theorem Rearranged.mem_iff {t : Token} (h : Rearranged ts ts') : t ∈ ts ↔ t ∈ ts' := by
  obtain ⟨hpositionals, hoptions⟩ := h
  cases t with
  | positional arg =>
    have hmem : ∀ ts, .positional arg ∈ ts ↔ arg ∈ positionals ts := by
      intro ts
      rw [positionals, List.mem_filterMap]
      refine ⟨fun h => ⟨_, h, rfl⟩, ?_⟩
      rintro ⟨t, ht, heq⟩
      cases t <;> cases heq
      exact ht
    rw [hmem, hpositionals, hmem]
  | help | output | dangling | setting =>
    have hmem : ∀ ts t, t.isPositional = false → (t ∈ options ts ↔ t ∈ ts) := by
      intro ts t ht
      simp [options, ht]
    rw [← hmem ts _ rfl, hoptions, hmem ts' _ rfl]

/-- The tokens are the arguments, in their order. -/
theorem flatMap_words_tokens (args : List String) : (tokens args).flatMap Token.words = args := by
  fun_induction tokens args with
  | case1 => rfl
  | case3 => rfl
  | case2 _ _ _ ih | case4 _ _ _ _ _ ih | case5 _ _ _ _ _ ih | case6 _ _ _ _ _ ih =>
    simp [Token.words, ih]

/-- A token is made of its arguments, whatever stands behind it. -/
theorem tokens_words_append {t : Token} (h : t ∈ tokens args) (hends : t.endsOpen = false) (rest : List String) :
    tokens (t.words ++ rest) = t :: tokens rest := by
  fun_induction tokens args with
  | case1 => cases h
  | case2 arg _ hhelp ih =>
    rcases List.mem_cons.1 h with rfl | h
    · rw [Token.words, List.singleton_append]
      conv_lhs => unfold tokens
      rw [if_pos hhelp]
    · exact ih h
  | case3 =>
    rw [List.mem_singleton.1 h] at hends
    cases hends
  | case4 arg hhelp houtput value _ ih =>
    rcases List.mem_cons.1 h with rfl | h
    · rw [Token.words, List.cons_append, List.singleton_append]
      conv_lhs => unfold tokens
      rw [if_neg hhelp, if_pos houtput]
    · exact ih h
  | case5 arg _ hhelp houtput hsetting ih =>
    rcases List.mem_cons.1 h with rfl | h
    · rw [Token.words, List.singleton_append]
      conv_lhs => unfold tokens
      rw [if_neg hhelp, if_neg houtput, if_pos hsetting]
    · exact ih h
  | case6 arg _ hhelp houtput hsetting ih =>
    rcases List.mem_cons.1 h with rfl | h
    · rw [Token.words, List.singleton_append]
      conv_lhs => unfold tokens
      rw [if_neg hhelp, if_neg houtput, if_neg hsetting]
    · exact ih h

theorem tokens_flatMap_words (h : ∀ t ∈ ts, t ∈ tokens args ∧ t.endsOpen = false) :
    tokens (ts.flatMap Token.words) = ts := by
  induction ts with
  | nil => rfl
  | cons t ts ih =>
    obtain ⟨⟨hmem, hends⟩, hrest⟩ := List.forall_mem_cons.1 h
    rw [List.flatMap_cons, tokens_words_append hmem hends, ih hrest]

/-- Tokens that have been moved stay the tokens of their arguments, if none of them lacks its value. -/
theorem Rearranged.tokens_eq (h : Rearranged (tokens args) ts) (hclosed : ¬ EndsOpen (tokens args)) :
    tokens (ts.flatMap Token.words) = ts := by
  apply tokens_flatMap_words
  intro t ht
  have hmem := h.mem_iff.2 ht
  refine ⟨hmem, ?_⟩
  cases t with
  | dangling arg => exact absurd ((endsOpen_iff args).2 ⟨arg, hmem⟩) hclosed
  | help | output | setting | positional => rfl

/-- Moving tokens keeps a result. -/
theorem ofList_of_rearranged {a : Arguments} (h : Rearranged (tokens args) ts) (hok : Arguments.ofList args = .ok a) :
    Arguments.ofList (ts.flatMap Token.words) = .ok a := by
  obtain ⟨hcalls, hused, hgives⟩ := (ends_ofList args).ok_iff.1 hok
  have hclosed : ¬ EndsOpen (tokens args) := fun hopen => hused (.inr (.inl hopen))
  have htokens := h.tokens_eq hclosed
  have hgives' := h.gives hgives
  have htwo : (positionals (tokens args)).length = 2 := by rw [hgives.paths]; rfl
  have htwo' : (positionals ts).length = 2 := by rw [hgives'.paths]; rfl
  apply (ends_ofList (ts.flatMap Token.words)).ok_iff.2
  rw [htokens]
  refine ⟨?_, ?_, hgives'⟩
  · rw [callsForHelp_iff htwo'.le]
    rintro ⟨arg, hmem⟩
    exact hcalls ((callsForHelp_iff htwo.le).2 ⟨arg, h.mem_iff.2 hmem⟩)
  · rintro (hmany | hopen | hfew | hempty)
    · omega
    · rw [← htokens] at hopen
      obtain ⟨arg, hmem⟩ := (endsOpen_iff _).1 hopen
      rw [htokens] at hmem
      exact hclosed ((endsOpen_iff args).2 ⟨arg, h.mem_iff.2 hmem⟩)
    · omega
    · exact hused (.inr (.inr (.inr (h.1 ▸ hempty))))

end Moving

/-- The tokens of a list of arguments tell how its reading ends: with a call for help, if there is one before a
third positional; with a misuse, if there are not just two positionals, none of them empty, or a value is missing;
and otherwise with what the tokens give. The options may stand anywhere between the positionals. -/
theorem ofList_tokens (args : List String) :
    (tokens args).flatMap Token.words = args ∧
    (Arguments.ofList args = .error ⟨0, usage⟩ ↔ CallsForHelp (tokens args)) ∧
    ((∃ lines, Arguments.ofList args = .error ⟨1, lines ++ usage⟩) ↔
      ¬ CallsForHelp (tokens args) ∧ IsMisused (tokens args)) ∧
    (∀ a, Arguments.ofList args = .ok a ↔
      ¬ CallsForHelp (tokens args) ∧ ¬ IsMisused (tokens args) ∧ Gives (tokens args) a) ∧
    ∀ ts a, Rearranged (tokens args) ts →
      Arguments.ofList args = .ok a → Arguments.ofList (ts.flatMap Token.words) = .ok a := by
  have hends := ends_ofList args
  refine ⟨flatMap_words_tokens args, hends.help_iff, hends.misuse_iff, fun a => hends.ok_iff, ?_⟩
  exact fun ts a hmoved hok => ofList_of_rearranged hmoved hok

/-- The option for the output directory takes even what would be a call for help. -/
example : Arguments.ofList ["-o", "-h", "a.so", "analyze=No", "m.json", "x=1"] =
    .ok ⟨"a.so", "m.json", "-h", false, ["x=1"]⟩ := by
  decide +kernel

end JniSignatures.Launch
