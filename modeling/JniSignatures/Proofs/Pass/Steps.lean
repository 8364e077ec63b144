import Mathlib
import JniSignatures.Pass.Sweep
import JniSignatures.Proofs.Pass.Sorting
import JniSignatures.Proofs.Running
import JniSignatures.Proofs.Text.CodePoint
/-!
# What a pass does to a session, step by step

All that a pass does to a session is to record calls, to print lines, to remember types and to change
functions. A relation between sessions that each of these steps keeps to, a whole pass keeps to
(`run_moves`), however it ends. So a pass leaves the archive alone (`types_of_exec`), of the calls to the
host it makes those that are a pass's (`calls_of_exec`), and it prints no notice, which is for the script to
do (`prints_of_exec`).
-/

namespace JniSignatures

/-- Whether a call is one of those that a pass makes. -/
def Call.isOfPass : Call → Bool
  | .listFunctions | .lookUpType _ | .replaceSignature _ _ _ | .setParameterName _ _ _
  | .setParameterType _ _ _ | .setReturnType _ _ => true
  | _ => false

/-- Whether a call asks the archive for a type. -/
def Call.isLookUp : Call → Bool
  | .lookUpType _ => true
  | _ => false

/-! ## Notices -/

/-- What a notice starts with. -/
def noticeLead : List Char := "JNI Lens".toList

/-- A line in which the script speaks of itself: how it is used, or how its pass has ended. -/
def IsNotice (line : Text) : Prop :=
  noticeLead.map CodePoint.ofChar <+: line.points

instance : DecidablePred IsNotice :=
  fun line => inferInstanceAs (Decidable (noticeLead.map CodePoint.ofChar <+: line.points))

/-- A line that starts in another way is no notice. -/
theorem not_isNotice {front : List Char} {line : Text} (hfront : front.map CodePoint.ofChar <+: line.points)
    (h : ¬ (noticeLead <+: front ∨ front <+: noticeLead)) : ¬ IsNotice line := fun hn =>
  h ((List.prefix_or_prefix_of_prefix hn hfront).imp
    (List.prefix_map_iff_of_injective CodePoint.ofChar_injective).1
    (List.prefix_map_iff_of_injective CodePoint.ofChar_injective).1)

theorem not_isNotice_append {front : String} (h : ¬ (noticeLead <+: front.toList ∨ front.toList <+: noticeLead))
    (rest : Text) : ¬ IsNotice (front ++ rest) :=
  not_isNotice (List.prefix_append _ _) h

theorem not_isNotice_of_isSymbol {name : String} (h : Symbol.isSymbol name) : ¬ IsNotice name :=
  not_isNotice (List.IsPrefix.map CodePoint.ofChar (Symbol.isSymbol_iff.1 h)) (by decide)

/-! ## Relations for the steps -/

namespace Session

/-- A relation that holds between a session and the next one when a type is looked up. -/
structure LooksUp (R : Session → Session → Prop) : Prop where
  asked : ∀ (s : Session) (path : Text), R s { s with calls := s.calls ++ [.lookUpType path] }
  learned : ∀ (s : Session) (typeName : Text) (descriptor : String),
    R s { s with known := Keyed.insert typeName descriptor s.known }

/-- A relation that holds between a session and the next one when a line is printed or a type looked up. -/
structure Reads (R : Session → Session → Prop) : Prop extends LooksUp R where
  lines : ∀ (s : Session) (lines : List Text), R s { s with printed := s.printed ++ lines }

/-- A relation that holds between a session and the next one, whatever step a pass takes. The lines that it
prints are no notices. -/
structure Acts (R : Session → Session → Prop) : Prop where
  call : ∀ (s : Session) (call : Call), call.isOfPass → R s { s with calls := s.calls ++ [call] }
  lines : ∀ (s : Session) (lines : List Text), (∀ line ∈ lines, ¬ IsNotice line) →
    R s { s with printed := s.printed ++ lines }
  learned : ∀ (s : Session) (typeName : Text) (descriptor : String),
    R s { s with known := Keyed.insert typeName descriptor s.known }
  edited : ∀ (s : Session) (i : Nat) (edit : Function → Function),
    R s { s with functions := s.functions.modify i edit }

/-- A relation that holds between a session and the next one, whatever step is taken, with any lines. -/
structure Steps (R : Session → Session → Prop) : Prop where
  call : ∀ (s : Session) (call : Call), call.isOfPass → R s { s with calls := s.calls ++ [call] }
  lines : ∀ (s : Session) (lines : List Text), R s { s with printed := s.printed ++ lines }
  learned : ∀ (s : Session) (typeName : Text) (descriptor : String),
    R s { s with known := Keyed.insert typeName descriptor s.known }
  edited : ∀ (s : Session) (i : Nat) (edit : Function → Function),
    R s { s with functions := s.functions.modify i edit }

theorem Acts.looksUp {R : Session → Session → Prop} (acts : Acts R) : LooksUp R :=
  ⟨fun s _ => acts.call s _ rfl, acts.learned⟩

theorem Steps.acts {R : Session → Session → Prop} (steps : Steps R) : Acts R :=
  ⟨steps.call, fun s lines _ => steps.lines s lines, steps.learned, steps.edited⟩

end Session

section Moving

variable {R : Session → Session → Prop} [IsPreorder Session R]

namespace Action

omit [IsPreorder Session R] in
theorem record_moves (acts : Session.Acts R) {call : Call} (h : call.isOfPass) : Moves R (Action.record call) :=
  Moves.modify fun s => acts.call s call h

omit [IsPreorder Session R] in
theorem print_moves (reads : Session.Reads R) (line : Text) : Moves R (Action.print line) :=
  Moves.modify fun s => reads.lines s [line]

omit [IsPreorder Session R] in
theorem printAll_moves (reads : Session.Reads R) (lines : List Text) : Moves R (Action.printAll lines) :=
  Moves.modify fun s => reads.lines s lines

omit [IsPreorder Session R] in
theorem say_moves (acts : Session.Acts R) {line : Text} (h : ¬ IsNotice line) : Moves R (Action.print line) :=
  Moves.modify fun s => acts.lines s [line] (List.forall_mem_singleton.2 h)

omit [IsPreorder Session R] in
theorem sayAll_moves (acts : Session.Acts R) {lines : List Text} (h : ∀ line ∈ lines, ¬ IsNotice line) :
    Moves R (Action.printAll lines) :=
  Moves.modify fun s => acts.lines s lines h

theorem functionName_moves (i : Nat) : Moves R (Action.functionName i) :=
  Moves.get_bind fun s => Moves.pure _ s

theorem change_moves (acts : Session.Acts R) {call : Call} (h : call.isOfPass) (setter : Setter) (i : Nat)
    (edit : Function → Function) : Moves R (Action.change call setter i edit) := by
  refine Moves.bind (record_moves acts h) fun _ => Moves.get_bind fun s => ?_
  cases s.functions[i]?.bind (·.refusalOf setter) with
  | some message => exact Moves.throw (ActionFault.refused message) s
  | none => exact Moves.modify (fun s => acts.edited s i edit) s

theorem replaceSignature_moves (acts : Session.Acts R) (i : Nat) (params : List Parameter) (returnType : String) :
    Moves R (Action.replaceSignature i params returnType) :=
  change_moves acts rfl _ _ _

theorem setFirstParameter_moves (acts : Session.Acts R) (i : Nat) (param : Parameter) :
    Moves R (Action.setFirstParameter i param) :=
  Moves.bind (change_moves acts rfl _ _ _) fun _ => change_moves acts rfl _ _ _

theorem setReturnType_moves (acts : Session.Acts R) (i : Nat) (returnType : String) :
    Moves R (Action.setReturnType i returnType) :=
  change_moves acts rfl _ _ _

end Action

namespace Catalog

theorem query_moves (looksUp : Session.LooksUp R) (typeName : Text) : Moves R (query typeName) := by
  refine Moves.bind (Moves.modify fun s => looksUp.asked s (path typeName)) fun _ => Moves.get_bind fun s => ?_
  cases s.types.lookup typeName with
  | some descriptor => exact Moves.pure descriptor s
  | none => exact Moves.throw (ActionFault.typeMissing typeName (path typeName)) s

theorem resolve_moves (looksUp : Session.LooksUp R) (typeName : Text) : Moves R (resolve typeName) := by
  refine Moves.get_bind fun s => ?_
  cases s.known.lookup typeName with
  | some descriptor => exact Moves.pure descriptor s
  | none =>
    refine Moves.bind (query_moves looksUp typeName) (fun descriptor => ?_) s
    exact Moves.bind (Moves.modify fun s => looksUp.learned s typeName descriptor) fun _ => Moves.pure _

end Catalog

namespace Signature

theorem arguments_moves (looksUp : Session.LooksUp R) (position : Nat) (names : List Text) :
    Moves R (arguments Catalog.resolve position names) := by
  induction names generalizing position with
  | nil => exact Moves.pure _
  | cons typeName rest ih =>
    exact Moves.bind (Catalog.resolve_moves looksUp typeName) fun _ => Moves.bind (ih (position + 1)) fun _ =>
      Moves.pure _

theorem ofMethod_moves (looksUp : Session.LooksUp R) (m : Method) : Moves R (ofMethod Catalog.resolve m) := by
  refine Moves.bind ?_ fun _ => Moves.bind (Catalog.resolve_moves looksUp _) fun _ => Moves.pure _
  exact Moves.bind (Catalog.resolve_moves looksUp _) fun _ => Moves.bind (Catalog.resolve_moves looksUp _) fun _ =>
    Moves.bind (arguments_moves looksUp 0 _) fun _ => Moves.pure _

theorem assignOnLoad_moves (acts : Session.Acts R) (i : Nat) : Moves R (assignOnLoad Catalog.resolve i) := by
  refine Moves.bind (Action.functionName_moves i) fun _ =>
    Moves.bind (Action.say_moves acts (not_isNotice_append (by decide) _)) fun _ => ?_
  refine Moves.bind (Catalog.resolve_moves acts.looksUp _) fun machine => ?_
  refine Moves.bind (Catalog.resolve_moves acts.looksUp _) fun version => Moves.get_bind fun s => ?_
  split
  · exact Moves.bind (Action.setFirstParameter_moves acts i _) (fun _ => Action.setReturnType_moves acts i _) s
  · exact Action.replaceSignature_moves acts i _ _ s

end Signature

namespace Pass

theorem applyMatch_moves (acts : Session.Acts R) (policy : Policy) (m : Method) (symbol : String) (i : Nat) :
    Moves R (applyMatch Catalog.resolve policy m symbol i) := by
  refine Moves.tryCatch (Moves.bind ?_ fun _ => Moves.pure _) fun fault => ?_
  · exact Moves.bind (Signature.ofMethod_moves acts.looksUp m) fun _ =>
      Moves.bind (Action.replaceSignature_moves acts i _ _) fun _ => Moves.pure _
  · split
    · rw [Text.append_assoc, Text.append_assoc]
      exact Moves.bind (Action.say_moves acts (not_isNotice_append (by decide) _)) fun _ => Moves.pure _
    · exact Moves.throw _

theorem matchMethod_moves (acts : Session.Acts R) (policy : Policy) (index : List (String × Nat)) (isShared : Bool)
    (m : Method) : Moves R (matchMethod Catalog.resolve policy index isShared m) := by
  unfold matchMethod
  cases Symbol.ofMethod isShared m.qualifiedName with
  | error fault =>
    exact Moves.bind (Action.say_moves acts (not_isNotice_append (by decide) _)) fun _ => Moves.pure _
  | ok symbol =>
    refine Moves.bind (Action.say_moves acts (not_isNotice_append (by decide) _)) fun _ => ?_
    cases index.lookup symbol with
    | none => exact Moves.pure _
    | some i => exact applyMatch_moves acts policy m symbol i

theorem matchMethods_moves (acts : Session.Acts R) (policy : Policy) (index : List (String × Nat))
    (shared : List String) (methods : List Method) :
    Moves R (matchMethods Catalog.resolve policy index shared methods) := by
  induction methods with
  | nil => exact Moves.pure _
  | cons m rest ih =>
    exact Moves.bind (matchMethod_moves acts policy index _ m) fun _ => Moves.bind ih fun _ => Moves.pure _

theorem modifyOnLoad_moves (acts : Session.Acts R) (positions : List Nat) :
    Moves R (modifyOnLoad Catalog.resolve positions) := by
  induction positions with
  | nil => exact Moves.pure _
  | cons i rest ih =>
    exact Moves.bind (Signature.assignOnLoad_moves acts i) fun _ =>
      Moves.bind (Action.functionName_moves i) fun _ => Moves.bind ih fun _ => Moves.pure _

/-- The inventory is that of the functions which there are. -/
theorem take_bind_moves {α : Type} (acts : Session.Acts R) {next : Inventory → Action α}
    (h : ∀ functions, Moves R (next (.ofFunctions functions))) : Moves R (Inventory.take >>= next) := by
  intro s
  have htake : exec Inventory.take s =
      (.ok (.ofFunctions s.functions), { s with calls := s.calls ++ [.listFunctions] }) := rfl
  rw [exec_bind_ok htake]
  exact trans_of R (acts.call s .listFunctions rfl) (h s.functions _)

theorem not_isNotice_closingLine (summary : Summary) : ¬ IsNotice (closingLine summary) := by
  have hline : ∃ rest, closingLine summary = "Applied " ++ rest := by
    unfold closingLine
    repeat rw [String.append_assoc]
    exact ⟨_, rfl⟩
  obtain ⟨rest, hrest⟩ := hline
  rw [hrest, Text.ofString_append]
  exact not_isNotice_append (by decide) rest

theorem run_moves_of_acts (acts : Session.Acts R) (policy : Policy) (methods : List Method) :
    Moves R (run policy methods) := by
  have say : ∀ {line : Text}, ¬ IsNotice line → Moves R (Action.print line) := Action.say_moves acts
  refine Moves.bind (say (by decide)) fun _ => take_bind_moves acts fun functions => ?_
  refine Moves.bind (Action.sayAll_moves acts (List.forall_mem_map.2 fun name hm => ?_)) fun _ =>
    Moves.bind (modifyOnLoad_moves acts _) fun _ => Moves.bind (say (not_isNotice_append (by decide) _)) fun _ =>
    Moves.bind (say (by decide)) fun _ =>
    Moves.bind (Action.sayAll_moves acts (List.forall_mem_map.2 fun name hm => ?_)) fun _ =>
    Moves.bind (say (by decide)) fun _ => Moves.bind (say (by decide)) fun _ =>
    Moves.bind (matchMethods_moves acts policy _ _ methods) fun _ =>
    Moves.bind (say (not_isNotice_closingLine _)) fun _ => Moves.pure _
  · obtain ⟨f, -, hnative, rfl⟩ := Inventory.mem_nativeNames_iff.1 (Inventory.mem_indexed_iff.1 hm)
    exact not_isNotice_of_isSymbol (Function.isSymbol_of_isNative hnative)
  · rw [Inventory.ignored_eq] at hm
    obtain ⟨f, hf, rfl⟩ := List.mem_map.1 hm
    exact not_isNotice_of_isSymbol (Function.isSymbol_of_isIgnored (List.mem_filter.1 hf).2)

theorem run_moves (steps : Session.Steps R) (policy : Policy) (methods : List Method) :
    Moves R (run policy methods) :=
  run_moves_of_acts steps.acts policy methods

end Pass

end Moving

/-! ## The archive, the calls and the lines -/

namespace Session

/-- One session has the archive of the other. -/
def SameTypes (s t : Session) : Prop :=
  t.types = s.types

instance : IsPreorder Session SameTypes where
  refl _ := rfl
  trans _ _ _ h h' := h'.trans h

theorem SameTypes.steps : Steps SameTypes :=
  ⟨fun _ _ _ => rfl, fun _ _ => rfl, fun _ _ _ => rfl, fun _ _ _ => rfl⟩

/-- The calls that one session has beyond those of the other are all of one kind. -/
def Calls (kind : Call → Bool) (s t : Session) : Prop :=
  ∃ added, t.calls = s.calls ++ added ∧ ∀ call ∈ added, kind call

instance (kind : Call → Bool) : IsPreorder Session (Calls kind) where
  refl s := ⟨[], (List.append_nil s.calls).symm, List.forall_mem_nil _⟩
  trans := by
    rintro s t u ⟨added, ht, hadded⟩ ⟨more, hu, hmore⟩
    exact ⟨added ++ more, by rw [hu, ht, List.append_assoc], List.forall_mem_append.2 ⟨hadded, hmore⟩⟩

theorem Calls.single {kind : Call → Bool} {s t : Session} {call : Call} (hcall : kind call)
    (h : t.calls = s.calls ++ [call]) : Calls kind s t :=
  ⟨[call], h, List.forall_mem_singleton.2 hcall⟩

theorem Calls.mono {kind kind' : Call → Bool} {s t : Session} (h : Calls kind s t)
    (hkind : ∀ call, kind call → kind' call) : Calls kind' s t := by
  obtain ⟨added, ht, hadded⟩ := h
  exact ⟨added, ht, fun call hm => hkind call (hadded call hm)⟩

theorem Calls.of_eq {kind : Call → Bool} {s t : Session} (h : t.calls = s.calls) : Calls kind s t :=
  ⟨[], by rw [h, List.append_nil], List.forall_mem_nil _⟩

theorem Calls.steps : Steps (Calls Call.isOfPass) :=
  ⟨fun _ _ hcall => .single hcall rfl, fun _ _ => .of_eq rfl, fun _ _ _ => .of_eq rfl, fun _ _ _ => .of_eq rfl⟩

/-- The lines that one session has beyond those of the other are no notices. -/
def Prints (s t : Session) : Prop :=
  ∃ lines, t.printed = s.printed ++ lines ∧ ∀ line ∈ lines, ¬ IsNotice line

theorem Prints.of_eq {s t : Session} (h : t.printed = s.printed) : Prints s t :=
  ⟨[], by rw [h, List.append_nil], List.forall_mem_nil _⟩

instance : IsPreorder Session Prints where
  refl _ := .of_eq rfl
  trans := by
    rintro s t u ⟨lines, ht, hlines⟩ ⟨more, hu, hmore⟩
    exact ⟨lines ++ more, by rw [hu, ht, List.append_assoc], List.forall_mem_append.2 ⟨hlines, hmore⟩⟩

theorem Prints.acts : Acts Prints :=
  ⟨fun _ _ _ => .of_eq rfl, fun _ lines h => ⟨lines, rfl, h⟩, fun _ _ _ => .of_eq rfl, fun _ _ _ => .of_eq rfl⟩

end Session

namespace Pass

variable {policy : Policy} {methods : List Method} {s t : Session} {r : Except ActionFault Report}

/-- The archive is after a pass as it was before. -/
theorem types_of_exec (h : exec (run policy methods) s = (r, t)) : t.types = s.types :=
  (run_moves Session.SameTypes.steps policy methods).of_exec h

theorem calls_of_exec (h : exec (run policy methods) s = (r, t)) : Session.Calls Call.isOfPass s t :=
  (run_moves Session.Calls.steps policy methods).of_exec h

theorem prints_of_exec (h : exec (run policy methods) s = (r, t)) : Session.Prints s t :=
  (run_moves_of_acts Session.Prints.acts policy methods).of_exec h

end Pass

end JniSignatures
