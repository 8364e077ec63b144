import Mathlib
import JniSignatures.Proofs.Script.Options
/-!
# Which argument counts

The script reads its arguments from the first to the last and keeps what it has read in one record. What it
ends with can be told from the positions of the arguments alone (`declared`): of several values for a path the
last one counts, of several policies the last one that is a policy, and of the arguments that set nothing the
first one behind the last that sets the methods file. `ofArgs_declared` says that the reading ends with just
that, and that it complains of each argument that it does not understand, in their order.
-/

namespace JniSignatures.Options

/-! ## The rules -/

/-- The argument sets the option of a key: the text before its first equals sign is the key. -/
def sets (key arg : String) : Bool :=
  (split? arg).any fun setting => setting.1 = key

/-- The trimmed value that an argument gives to a key. -/
def value? (key arg : String) : Option String :=
  (split? arg).bind fun (name, value) => if name = key then some (Text.trim value) else none

/-- The value of the last argument that sets a key, unless it is empty. -/
def lastPath (key : String) (args : List String) : Option String :=
  (args.filterMap (value? key)).getLast?.bind nonEmpty

/-- The policy that a value names, in any mixture of small and capital letters. -/
def policy? (value : String) : Option Policy :=
  Policy.ofName? (Text.lower value)

/-- The policy of the last argument that names one. -/
def lastPolicy (args : List String) : Policy :=
  ((args.filterMap (value? "on_type_error")).filterMap policy?).getLast?.getD .abort

/-- The argument sets nothing and does not call for help. -/
def IsPositional (arg : String) : Prop :=
  '=' ∉ arg.toList ∧ arg ≠ "-h" ∧ arg ≠ "--help"

instance : DecidablePred IsPositional :=
  fun arg => inferInstanceAs (Decidable ('=' ∉ arg.toList ∧ arg ≠ "-h" ∧ arg ≠ "--help"))

/-- The arguments behind the last one that sets the methods file; all of them if none does. -/
def behindMethods (args : List String) : List String :=
  args.rtakeWhile fun arg => !sets "methods" arg

/-- What the arguments say. -/
def declared (args : List String) : Options :=
  { methodsPath := lastPath "methods" args <|> (behindMethods args).find? IsPositional
    reportDirectory := lastPath "report_dir" args
    archive := lastPath "archive" args
    policy := lastPolicy args
    help := decide ("-h" ∈ args ∨ "--help" ∈ args) }

/-- The keys of paths. -/
def pathKeys : List String := ["methods", "report_dir", "archive"]

/-- The complaint about an argument that sets an unknown option, or the policy to what is none. -/
def complaint? (arg : String) : Option String :=
  (split? arg).bind fun (key, value) =>
    if key = "on_type_error" then
      if policy? (Text.trim value) = none then some ("Invalid value for on_type_error: " ++ Text.trim value) else none
    else if key ∈ pathKeys then none
    else some ("Unknown option: " ++ key)

/-! ## Cutting at the first equals sign -/

section Cutting

variable {arg key value : String}

/-- A text with an equals sign has a first one. -/
theorem exists_setting (h : '=' ∈ arg.toList) : ∃ key value, '=' ∉ key.toList ∧ arg = key ++ "=" ++ value := by
  obtain ⟨front, back, harg, hfront⟩ := List.eq_append_cons_of_mem h
  refine ⟨String.ofList front, String.ofList back, by simpa using hfront, ?_⟩
  apply String.toList_inj.1
  simp [harg]

theorem split?_eq_some_iff : split? arg = some (key, value) ↔ '=' ∉ key.toList ∧ arg = key ++ "=" ++ value := by
  constructor
  · intro h
    by_cases hmem : '=' ∈ arg.toList
    · obtain ⟨front, back, hfront, rfl⟩ := exists_setting hmem
      rw [split?_append hfront] at h
      cases h
      exact ⟨hfront, rfl⟩
    · rw [split?_eq_none hmem] at h
      cases h
  · rintro ⟨hkey, rfl⟩
    exact split?_append hkey value

theorem split?_eq_none_iff : split? arg = none ↔ '=' ∉ arg.toList := by
  refine ⟨fun h hmem => ?_, split?_eq_none⟩
  obtain ⟨key, value, hkey, rfl⟩ := exists_setting hmem
  rw [split?_append hkey] at h
  cases h

end Cutting

/-! ## One more argument -/

section Concat

variable {args : List String} {arg key name value : String}

theorem isHelp_iff : isHelp arg = true ↔ arg = "-h" ∨ arg = "--help" := by
  simp [isHelp]

theorem isPositional_iff : IsPositional arg ↔ isHelp arg = false ∧ split? arg = none := by
  rw [IsPositional, split?_eq_none_iff, ← Bool.not_eq_true, isHelp_iff]
  tauto

theorem value?_of_none (h : split? arg = none) (key : String) : value? key arg = none := by
  simp [value?, h]

theorem sets_of_none (h : split? arg = none) (key : String) : sets key arg = false := by
  simp [sets, h]

theorem value?_self (h : split? arg = some (key, value)) : value? key arg = some (Text.trim value) := by
  simp [value?, h]

theorem value?_of_ne (h : split? arg = some (key, value)) (hne : key ≠ name) : value? name arg = none := by
  simp [value?, h, hne]

theorem lastPath_concat_none (h : value? key arg = none) : lastPath key (args ++ [arg]) = lastPath key args := by
  simp [lastPath, List.filterMap_append, h]

theorem lastPath_concat_some (h : value? key arg = some value) : lastPath key (args ++ [arg]) = nonEmpty value := by
  simp [lastPath, List.filterMap_append, h]

theorem lastPolicy_concat_none (h : value? "on_type_error" arg = none) :
    lastPolicy (args ++ [arg]) = lastPolicy args := by
  simp [lastPolicy, List.filterMap_append, h]

theorem lastPolicy_concat_some (h : value? "on_type_error" arg = some value) :
    lastPolicy (args ++ [arg]) = (policy? value).getD (lastPolicy args) := by
  unfold lastPolicy
  cases hp : policy? value <;> simp [List.filterMap_append, h, hp]

theorem behindMethods_concat_neg (h : sets "methods" arg = false) :
    behindMethods (args ++ [arg]) = behindMethods args ++ [arg] :=
  List.rtakeWhile_concat_pos _ _ _ (by simp [h])

theorem behindMethods_concat_pos (h : sets "methods" arg = true) : behindMethods (args ++ [arg]) = [] :=
  List.rtakeWhile_concat_neg _ _ _ (by simp [h])

/-- An argument that does not set the methods file is taken for it if there is none and it sets nothing else. -/
theorem methodsPath_concat (h : sets "methods" arg = false) (hvalue : value? "methods" arg = none) :
    (declared (args ++ [arg])).methodsPath =
      ((declared args).methodsPath <|> if IsPositional arg then some arg else none) := by
  show (lastPath _ _ <|> (behindMethods _).find? _) = ((lastPath _ _ <|> (behindMethods _).find? _) <|> _)
  rw [lastPath_concat_none hvalue, behindMethods_concat_neg h, List.find?_append]
  cases lastPath "methods" args <;> by_cases hp : IsPositional arg <;> simp [hp]

theorem help_concat : (declared (args ++ [arg])).help = ((declared args).help || isHelp arg) := by
  rw [Bool.eq_iff_iff, Bool.or_eq_true, isHelp_iff]
  simp only [declared, List.mem_append, List.mem_singleton, decide_eq_true_eq]
  tauto

/-- An argument that sets nothing gives no option a value. -/
theorem declared_concat_of_none (h : split? arg = none) : declared (args ++ [arg]) =
    { declared args with
      methodsPath := (declared args).methodsPath <|> if IsPositional arg then some arg else none
      help := (declared args).help || isHelp arg } := by
  rw [← methodsPath_concat (sets_of_none h _) (value?_of_none h _), ← help_concat]
  simp only [declared, lastPath_concat_none (value?_of_none h _), lastPolicy_concat_none (value?_of_none h _)]

/-- An argument that sets an option leaves the others as they are. -/
theorem declared_concat_of_some (h : split? arg = some (key, value)) : declared (args ++ [arg]) =
    { methodsPath := if key = "methods" then nonEmpty (Text.trim value) else (declared args).methodsPath
      reportDirectory := if key = "report_dir" then nonEmpty (Text.trim value) else (declared args).reportDirectory
      archive := if key = "archive" then nonEmpty (Text.trim value) else (declared args).archive
      policy := if key = "on_type_error" then (policy? (Text.trim value)).getD (declared args).policy
        else (declared args).policy
      help := (declared args).help } := by
  have hpath : ∀ name, lastPath name (args ++ [arg]) =
      if key = name then nonEmpty (Text.trim value) else lastPath name args := by
    intro name
    split_ifs with hname
    · exact lastPath_concat_some (value?_self (hname ▸ h))
    · exact lastPath_concat_none (value?_of_ne h hname)
  have hpolicy : lastPolicy (args ++ [arg]) =
      if key = "on_type_error" then (policy? (Text.trim value)).getD (lastPolicy args) else lastPolicy args := by
    split_ifs with hname
    · exact lastPolicy_concat_some (value?_self (hname ▸ h))
    · exact lastPolicy_concat_none (value?_of_ne h hname)
  have hmethods : (declared (args ++ [arg])).methodsPath =
      if key = "methods" then nonEmpty (Text.trim value) else (declared args).methodsPath := by
    split_ifs with hname
    · show (lastPath _ _ <|> (behindMethods _).find? _) = _
      rw [hpath, if_pos hname, behindMethods_concat_pos (by simp [sets, h, hname])]
      cases nonEmpty (Text.trim value) <;> rfl
    · rw [methodsPath_concat (by simp [sets, h, hname]) (value?_of_ne h hname), if_neg (by simp [isPositional_iff, h])]
      cases (declared args).methodsPath <;> rfl
  have hhelp : (declared (args ++ [arg])).help = (declared args).help := by
    rw [help_concat, isHelp_of_split? h, Bool.or_false]
  rw [← hmethods, ← hhelp]
  simp only [declared, hpath, hpolicy]

end Concat

/-! ## The reading -/

theorem step_concat (args : List String) (arg : String) :
    (declared args).step arg = (declared (args ++ [arg]), complaint? arg) := by
  cases hsplit : split? arg with
  | none =>
    rw [declared_concat_of_none hsplit]
    unfold step complaint?
    rw [hsplit]
    cases hhelp : isHelp arg with
    | true =>
      have hpositional : ¬ IsPositional arg := by simp [isPositional_iff, hhelp]
      rw [if_neg hpositional]
      cases hpath : (declared args).methodsPath <;> simp [← hpath]
    | false =>
      have hpositional : IsPositional arg := by simp [isPositional_iff, hhelp, hsplit]
      simp [hpositional]
  | some setting =>
    obtain ⟨key, value⟩ := setting
    rw [declared_concat_of_some hsplit, step_of_split? hsplit]
    unfold set complaint?
    rw [hsplit]
    by_cases hm : key = "methods"
    · subst hm
      simp [pathKeys]
    by_cases hd : key = "report_dir"
    · subst hd
      simp [pathKeys]
    by_cases ha : key = "archive"
    · subst ha
      simp [pathKeys]
    by_cases ht : key = "on_type_error"
    · subst ht
      cases hpolicy : policy? (Text.trim value) with
      | none =>
        rw [policy?] at hpolicy
        simp [hpolicy, policy?]
      | some policy =>
        rw [policy?] at hpolicy
        simp [hpolicy, policy?]
    · simp [hm, hd, ha, ht, pathKeys]

theorem stepAll_append (o : Options) (args more : List String) :
    o.stepAll (args ++ more) =
      (((o.stepAll args).1.stepAll more).1, (o.stepAll args).2 ++ ((o.stepAll args).1.stepAll more).2) := by
  induction args generalizing o with
  | nil => rfl
  | cons arg rest ih =>
    rw [List.cons_append, stepAll, stepAll]
    simp only [ih, List.append_assoc]

/-- The policy that the script hands on has a name that the pass knows. -/
theorem runNamed_name (policy : Policy) (methods : List Method) :
    Pass.runNamed policy.name methods = (Pass.run policy methods).adapt .action := by
  cases policy <;> rfl

/-- The reading ends with what the positions of the arguments say, it complains once of each argument that it
does not understand, and the pass knows the policy. -/
theorem ofArgs_declared (args : List String) :
    ofArgs args = (declared args, args.filterMap complaint?) ∧
      ∀ methods, Pass.runNamed (ofArgs args).1.policy.name methods =
        (Pass.run (ofArgs args).1.policy methods).adapt .action := by
  refine ⟨?_, runNamed_name (ofArgs args).1.policy⟩
  -- From the end, since the last argument is the one that counts.
  induction args using List.reverseRecOn with
  | nil => rfl
  | append_singleton args arg ih =>
    unfold ofArgs at ih ⊢
    rw [stepAll_append, ih]
    simp only [stepAll, step_concat, List.filterMap_append]
    cases hc : complaint? arg <;> simp [hc]

/-- An empty value makes room for a later argument, and a value that is no policy changes nothing. -/
example : ofArgs ["a.json", "on_type_error= SKIP ", "methods= ", "b.json", "c.json", "on_type_error=no"] =
    (⟨some "b.json", none, none, .skip, false⟩, ["Invalid value for on_type_error: no"]) := by
  decide +kernel

end JniSignatures.Options
