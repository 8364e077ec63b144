import Mathlib
import JniSignatures.Methods.Method
import JniSignatures.Proofs.Running
/-!
# The schema of a list of methods

The shape of a document is stated as a relation between JSON values and the methods they stand for (`Reads`),
and what is wrong with another one as the first check that it fails (`Refused`). Reading decides both, and a
document written from methods with names and return types reads back (`ofDocument_schema`).
-/

namespace JniSignatures.Method

/-! ## The schema -/

/-- The field of an entry that must be there is a text with something in it. -/
def HasText (entry : Json) (key : String) : Prop :=
  ∃ text, entry.get? key = some (.string text) ∧ text ≠ ""

/-- What a field says about the argument types. -/
inductive ReadsTypes : Option Json → List Text → Prop
  | missing : ReadsTypes none []
  | null : ReadsTypes (some .null) []
  | texts (types : List Text) : ReadsTypes (some (.array (types.map .string))) types

/-- What a field says about being static. -/
inductive ReadsStatic : Option Json → Bool → Prop
  | missing : ReadsStatic none false
  | null : ReadsStatic (some .null) false
  | bool (value : Bool) : ReadsStatic (some (.bool value)) value

/-- An entry stands for a method. -/
structure ReadsEntry (entry : Json) (m : Method) : Prop where
  isObject : entry.kind = .object
  name : entry.get? "methodName" = some (.string m.qualifiedName)
  name_ne : m.qualifiedName ≠ ""
  returned : entry.get? "returnType" = some (.string m.returnType)
  returned_ne : m.returnType ≠ ""
  types : ReadsTypes (entry.get? "argumentTypes") m.argumentTypes
  static : ReadsStatic (entry.get? "isStatic") m.isStatic

/-- A document stands for a list of methods. -/
inductive Reads (document : Json) : List Method → Prop
  | missing (isObject : document.kind = .object) (field : document.get? "methods" = none) : Reads document []
  | null (isObject : document.kind = .object) (field : document.get? "methods" = some .null) : Reads document []
  | entries {entries : List Json} {ms : List Method} (isObject : document.kind = .object)
      (field : document.get? "methods" = some (.array entries)) (read : List.Forall₂ ReadsEntry entries ms) :
      Reads document ms

/-- The checks of an entry in their order, each by the fault that it finds. -/
def checks : List EntryFault :=
  [.notObject, .missingText "methodName", .missingText "returnType", .argumentTypes, .isStatic]

/-- An entry passes a check. -/
def Passes (entry : Json) : EntryFault → Prop
  | .notObject => entry.kind = .object
  | .missingText key => HasText entry key
  | .argumentTypes => ∃ types, ReadsTypes (entry.get? "argumentTypes") types
  | .isStatic => ∃ value, ReadsStatic (entry.get? "isStatic") value

/-- The first check that an entry fails. -/
def FirstFault (entry : Json) (fault : EntryFault) : Prop :=
  ∃ before after, checks = before ++ fault :: after ∧ (∀ check ∈ before, Passes entry check) ∧ ¬ Passes entry fault

/-- What is wrong with a document that stands for no list of methods. -/
inductive Refused (document : Json) : Fault → Prop
  | rootNotObject (h : document.kind ≠ .object) : Refused document .rootNotObject
  | methodsNotList {value : Json} (isObject : document.kind = .object)
      (field : document.get? "methods" = some value) (notNull : value.kind ≠ .null)
      (notArray : value.kind ≠ .array) : Refused document .methodsNotList
  | entry {before after : List Json} {entry : Json} {fault : EntryFault} (isObject : document.kind = .object)
      (field : document.get? "methods" = some (.array (before ++ entry :: after)))
      (read : ∀ e ∈ before, ∃ m, ReadsEntry e m) (faulty : FirstFault entry fault) :
      Refused document (.entry before.length fault)

/-! ## The form of a method -/

/-- The entry of a method. -/
def toJson (m : Method) : Json :=
  .object [("methodName", .string m.qualifiedName), ("argumentTypes", .array (m.argumentTypes.map .string)),
    ("returnType", .string m.returnType), ("isStatic", .bool m.isStatic)]

/-- The document that lists methods. -/
def toDocument (ms : List Method) : Json :=
  .object [("methods", .array (ms.map toJson))]

/-! ## Single fields -/

section Fields

variable {entry : Json} {key : String} {f : EntryFault}

/-- A check that finds one fault only finds it where nothing can be read. -/
theorem eq_error_iff_of_eq_ok_iff {α : Type} {field : Except EntryFault α} {R : α → Prop} {fault : EntryFault}
    (hok : ∀ a, field = .ok a ↔ R a) (hfault : ∀ g, field = .error g → g = fault) :
    field = .error f ↔ f = fault ∧ ¬ ∃ a, R a := by
  constructor
  · rintro hf
    refine ⟨hfault f hf, ?_⟩
    rintro ⟨a, ha⟩
    cases hf.symm.trans ((hok a).2 ha)
  · rintro ⟨rfl, hnone⟩
    cases hfield : field with
    | error g => rw [hfault g hfield]
    | ok a => exact (hnone ⟨a, (hok a).1 hfield⟩).elim

theorem textField_eq_ok_iff {text : Text} :
    textField entry key = .ok text ↔ entry.get? key = some (.string text) ∧ text ≠ "" := by
  unfold textField
  split <;> grind

theorem textField_eq_error_iff : textField entry key = .error f ↔ f = .missingText key ∧ ¬ HasText entry key := by
  refine eq_error_iff_of_eq_ok_iff (fun _ => textField_eq_ok_iff) fun g hg => ?_
  unfold textField at hg
  split at hg <;> grind

theorem texts?_map (types : List Text) : texts? (types.map .string) = some types := by
  induction types with
  | nil => rfl
  | cons t ts ih => rw [List.map_cons, texts?, ih, Option.map_some]

theorem eq_map_of_texts? {items : List Json} {types : List Text} (h : texts? items = some types) :
    items = types.map .string := by
  fun_induction texts? items generalizing types with
  | case1 =>
    cases h
    rfl
  | case2 text rest ih =>
    obtain ⟨ts, hts, rfl⟩ := Option.map_eq_some_iff.1 h
    rw [ih hts, List.map_cons]
  | case3 => cases h

theorem argumentTypesField_eq_ok_iff {types : List Text} :
    argumentTypesField entry = .ok types ↔ ReadsTypes (entry.get? "argumentTypes") types := by
  unfold argumentTypesField
  generalize entry.get? "argumentTypes" = field
  constructor
  · intro h
    split at h
    · cases h
      exact .missing
    · cases h
      exact .null
    · split at h
      · next items _ htypes =>
        cases h
        rw [eq_map_of_texts? htypes]
        exact .texts types
      · cases h
    · cases h
  · rintro (_ | _ | types)
    · rfl
    · rfl
    · simp only [texts?_map]

theorem argumentTypesField_eq_error_iff :
    argumentTypesField entry = .error f ↔ f = .argumentTypes ∧ ¬ Passes entry .argumentTypes := by
  refine eq_error_iff_of_eq_ok_iff (fun _ => argumentTypesField_eq_ok_iff) fun g hg => ?_
  unfold argumentTypesField at hg
  split at hg <;> grind

theorem staticField_eq_ok_iff {value : Bool} :
    staticField entry = .ok value ↔ ReadsStatic (entry.get? "isStatic") value := by
  unfold staticField
  generalize entry.get? "isStatic" = field
  constructor
  · intro h
    split at h
    · cases h
      exact .missing
    · cases h
      exact .null
    · cases h
      exact .bool value
    · cases h
  · rintro (_ | _ | _) <;> rfl

theorem staticField_eq_error_iff : staticField entry = .error f ↔ f = .isStatic ∧ ¬ Passes entry .isStatic := by
  refine eq_error_iff_of_eq_ok_iff (fun _ => staticField_eq_ok_iff) fun g hg => ?_
  unfold staticField at hg
  split at hg <;> grind

end Fields

/-! ## Entries -/

section Entries

variable {entry : Json} {m : Method} {f : EntryFault}

theorem ofEntry_of_ne_object (h : entry.kind ≠ .object) : ofEntry entry = .error .notObject := by
  cases entry <;> first | rfl | exact (h rfl).elim

theorem ofEntry_of_object (h : entry.kind = .object) : ofEntry entry = do
    let qualifiedName ← textField entry "methodName"
    let returnType ← textField entry "returnType"
    let argumentTypes ← argumentTypesField entry
    let isStatic ← staticField entry
    return { qualifiedName, argumentTypes, returnType, isStatic } := by
  cases entry <;> first | rfl | cases h

theorem ofEntry_eq_ok_iff : ofEntry entry = .ok m ↔ ReadsEntry entry m := by
  constructor
  · intro h
    have hobject : entry.kind = .object := by
      by_contra hne
      rw [ofEntry_of_ne_object hne] at h
      cases h
    rw [ofEntry_of_object hobject] at h
    obtain ⟨name, hname, h⟩ := bind_eq_ok_iff.1 h
    obtain ⟨returned, hreturned, h⟩ := bind_eq_ok_iff.1 h
    obtain ⟨types, htypes, h⟩ := bind_eq_ok_iff.1 h
    obtain ⟨static, hstatic, h⟩ := bind_eq_ok_iff.1 h
    cases h
    obtain ⟨hname, hname_ne⟩ := textField_eq_ok_iff.1 hname
    obtain ⟨hreturned, hreturned_ne⟩ := textField_eq_ok_iff.1 hreturned
    exact ⟨hobject, hname, hname_ne, hreturned, hreturned_ne, argumentTypesField_eq_ok_iff.1 htypes,
      staticField_eq_ok_iff.1 hstatic⟩
  · intro h
    rw [ofEntry_of_object h.isObject]
    exact bind_eq_ok_iff.2 ⟨_, textField_eq_ok_iff.2 ⟨h.name, h.name_ne⟩,
      bind_eq_ok_iff.2 ⟨_, textField_eq_ok_iff.2 ⟨h.returned, h.returned_ne⟩,
        bind_eq_ok_iff.2 ⟨_, argumentTypesField_eq_ok_iff.2 h.types,
          bind_eq_ok_iff.2 ⟨_, staticField_eq_ok_iff.2 h.static, rfl⟩⟩⟩⟩

/-- The first failing check is the one at the head, or that passes and it is the first one of the rest. -/
theorem first_cons {P : EntryFault → Prop} {c : EntryFault} {cs : List EntryFault} :
    (∃ before after, c :: cs = before ++ f :: after ∧ (∀ check ∈ before, P check) ∧ ¬ P f) ↔
      (f = c ∧ ¬ P c) ∨
        P c ∧ ∃ before after, cs = before ++ f :: after ∧ (∀ check ∈ before, P check) ∧ ¬ P f := by
  constructor
  · rintro ⟨_ | ⟨b, before⟩, after, hcs, hbefore, hf⟩
    · cases hcs
      exact .inl ⟨rfl, hf⟩
    · cases hcs
      exact .inr ⟨hbefore _ List.mem_cons_self, before, after, rfl,
        fun check hc => hbefore check (List.mem_cons_of_mem _ hc), hf⟩
  · rintro (⟨rfl, hf⟩ | ⟨hc, before, after, rfl, hbefore, hf⟩)
    · exact ⟨[], cs, rfl, nofun, hf⟩
    · exact ⟨c :: before, after, rfl, List.forall_mem_cons.2 ⟨hc, hbefore⟩, hf⟩

/-- The checks one after another. -/
theorem firstFault_iff : FirstFault entry f ↔
    (f = .notObject ∧ entry.kind ≠ .object) ∨ entry.kind = .object ∧
      ((f = .missingText "methodName" ∧ ¬ HasText entry "methodName") ∨ HasText entry "methodName" ∧
        ((f = .missingText "returnType" ∧ ¬ HasText entry "returnType") ∨ HasText entry "returnType" ∧
          ((f = .argumentTypes ∧ ¬ Passes entry .argumentTypes) ∨ Passes entry .argumentTypes ∧
            f = .isStatic ∧ ¬ Passes entry .isStatic))) := by
  have hnil : ¬ ∃ before after, [] = before ++ f :: after ∧ (∀ check ∈ before, Passes entry check) ∧
      ¬ Passes entry f := by
    rintro ⟨before, after, h, -⟩
    cases before <;> cases h
  unfold FirstFault checks
  rw [first_cons, first_cons, first_cons, first_cons, first_cons]
  simp only [hnil, and_false, or_false]
  rfl

theorem ofEntry_eq_error_iff : ofEntry entry = .error f ↔ FirstFault entry f := by
  rw [firstFault_iff]
  by_cases hobject : entry.kind = .object
  · have hreturn : ∀ m : Method, (pure m : Except EntryFault Method) ≠ .error f := nofun
    rw [ofEntry_of_object hobject]
    simp only [bind_eq_error_iff, textField_eq_error_iff, argumentTypesField_eq_error_iff, staticField_eq_error_iff,
      textField_eq_ok_iff, argumentTypesField_eq_ok_iff, hreturn, and_false, exists_false, or_false, exists_and_right,
      hobject, not_true, ne_eq, false_or, true_and]
    rfl
  · rw [ofEntry_of_ne_object hobject]
    simp [hobject, eq_comm]

end Entries

/-! ## Documents -/

section Documents

variable {document : Json} {entries : List Json} {ms : List Method} {position : Nat} {fault : Fault}

theorem ofEntries_eq_ok_iff : ofEntries position entries = .ok ms ↔ List.Forall₂ ReadsEntry entries ms := by
  induction entries generalizing position ms with
  | nil => simp [ofEntries, List.forall₂_nil_left_iff, eq_comm]
  | cons entry rest ih =>
    rw [ofEntries, List.forall₂_cons_left_iff]
    cases hentry : ofEntry entry with
    | error f =>
      simp only [reduceCtorEq, false_iff]
      rintro ⟨m, ms', hm, -, -⟩
      cases hentry.symm.trans (ofEntry_eq_ok_iff.2 hm)
    | ok m =>
      cases hrest : ofEntries (position + 1) rest with
      | error f =>
        simp only [Except.map, reduceCtorEq, false_iff]
        rintro ⟨m', ms', -, hms, -⟩
        cases hrest.symm.trans (ih.2 hms)
      | ok ms' =>
        simp only [Except.map, Except.ok.injEq]
        constructor
        · rintro rfl
          exact ⟨m, ms', ofEntry_eq_ok_iff.1 hentry, ih.1 hrest, rfl⟩
        · rintro ⟨m', ms'', hm, hms, rfl⟩
          cases hentry.symm.trans (ofEntry_eq_ok_iff.2 hm)
          cases hrest.symm.trans (ih.2 hms)
          rfl

/-- The first entry at fault is the one at the head, or that reads and it is the first one of the rest. -/
theorem ofEntries_eq_error_iff : ofEntries position entries = .error fault ↔
    ∃ before entry after f, entries = before ++ entry :: after ∧ (∀ e ∈ before, ∃ m, ReadsEntry e m) ∧
      FirstFault entry f ∧ fault = .entry (position + before.length) f := by
  induction entries generalizing position with
  | nil => simp [ofEntries]
  | cons entry rest ih =>
    rw [ofEntries]
    cases hentry : ofEntry entry with
    | error f =>
      simp only [Except.error.injEq]
      constructor
      · rintro rfl
        exact ⟨[], entry, rest, f, rfl, nofun, ofEntry_eq_error_iff.1 hentry, rfl⟩
      · rintro ⟨_ | ⟨e, before⟩, entry', after, f', hsplit, hbefore, hf, rfl⟩
        · cases hsplit
          cases hentry.symm.trans (ofEntry_eq_error_iff.2 hf)
          rfl
        · cases hsplit
          obtain ⟨m, hm⟩ := hbefore _ List.mem_cons_self
          cases hentry.symm.trans (ofEntry_eq_ok_iff.2 hm)
    | ok m =>
      have hmap : ∀ r : Except Fault (List Method), r.map (m :: ·) = .error fault ↔ r = .error fault := by
        rintro (_ | _) <;> simp [Except.map]
      rw [hmap, ih]
      constructor
      · rintro ⟨before, entry', after, f, rfl, hbefore, hf, rfl⟩
        refine ⟨entry :: before, entry', after, f, rfl,
          List.forall_mem_cons.2 ⟨⟨m, ofEntry_eq_ok_iff.1 hentry⟩, hbefore⟩, hf, ?_⟩
        rw [List.length_cons, Nat.add_right_comm, Nat.add_assoc]
      · rintro ⟨_ | ⟨e, before⟩, entry', after, f, hsplit, hbefore, hf, rfl⟩
        · cases hsplit
          cases hentry.symm.trans (ofEntry_eq_error_iff.2 hf)
        · cases hsplit
          refine ⟨before, entry', after, f, rfl, fun e he => hbefore e (List.mem_cons_of_mem _ he), hf, ?_⟩
          rw [List.length_cons, Nat.add_right_comm, Nat.add_assoc]

theorem ofDocument_of_ne_object (h : document.kind ≠ .object) : ofDocument document = .error .rootNotObject := by
  cases document <;> first | rfl | exact (h rfl).elim

theorem ofDocument_of_object (h : document.kind = .object) : ofDocument document =
    match document.get? "methods" with
    | none | some .null => .ok []
    | some (.array entries) => ofEntries 0 entries
    | some _ => .error .methodsNotList := by
  cases document <;> first | rfl | cases h

theorem ofDocument_eq_ok_iff : ofDocument document = .ok ms ↔ Reads document ms := by
  constructor
  · intro h
    have hobject : document.kind = .object := by
      by_contra hne
      rw [ofDocument_of_ne_object hne] at h
      cases h
    rw [ofDocument_of_object hobject] at h
    split at h
    · next hfield =>
      cases h
      exact .missing hobject hfield
    · next hfield =>
      cases h
      exact .null hobject hfield
    · next hfield => exact .entries hobject hfield (ofEntries_eq_ok_iff.1 h)
    · cases h
  · rintro (⟨hobject, hfield⟩ | ⟨hobject, hfield⟩ | ⟨hobject, hfield, hread⟩)
    · rw [ofDocument_of_object hobject, hfield]
    · rw [ofDocument_of_object hobject, hfield]
    · rw [ofDocument_of_object hobject, hfield]
      exact ofEntries_eq_ok_iff.2 hread

theorem ofDocument_eq_error_iff : ofDocument document = .error fault ↔ Refused document fault := by
  constructor
  · intro h
    by_cases hobject : document.kind = .object
    · rw [ofDocument_of_object hobject] at h
      split at h
      · cases h
      · cases h
      · next hfield =>
        obtain ⟨before, entry, after, f, rfl, hbefore, hf, rfl⟩ := ofEntries_eq_error_iff.1 h
        rw [Nat.zero_add]
        exact .entry hobject hfield hbefore hf
      · next value hnull harray hfield =>
        cases h
        refine .methodsNotList hobject hfield (fun hk => ?_) fun hk => ?_
        · cases value <;> cases hk
          exact hnull rfl
        · cases value <;> cases hk
          exact harray _ rfl
    · rw [ofDocument_of_ne_object hobject] at h
      cases h
      exact .rootNotObject hobject
  · rintro (hne | ⟨hobject, hfield, hnull, harray⟩ | ⟨hobject, hfield, hbefore, hf⟩)
    · exact ofDocument_of_ne_object hne
    · rw [ofDocument_of_object hobject, hfield]
      split
      · next h => cases h
      · next h =>
        cases h
        exact (hnull rfl).elim
      · next h =>
        cases h
        exact (harray rfl).elim
      · rfl
    · rw [ofDocument_of_object hobject, hfield]
      refine ofEntries_eq_error_iff.2 ⟨_, _, _, _, rfl, hbefore, hf, ?_⟩
      rw [Nat.zero_add]

end Documents

/-! ## What a fault says -/

/-- What the message about an entry says behind the place of the entry. -/
def EntryFault.wording : EntryFault → String
  | .notObject => " is not an object"
  | .missingText key => " missing string field " ++ ("'" ++ key ++ "'")
  | .argumentTypes => ".argumentTypes must be a list of strings"
  | .isStatic => ".isStatic must be a boolean"

theorem message_entry {check : EntryFault} (h : check ∈ checks) (position : Nat) :
    (Fault.entry position check).message = "methods[" ++ toString position ++ "]" ++ check.wording := by
  have hquoted : ∀ key ∈ ["methodName", "returnType"], Text.quoted key = "'" ++ key ++ "'" := by decide +kernel
  have hmissing : ∀ key ∈ ["methodName", "returnType"], (Fault.entry position (.missingText key)).message =
      "methods[" ++ toString position ++ "]" ++ (EntryFault.missingText key).wording := by
    intro key hkey
    show _ ++ " missing string field " ++ Text.quoted key = _ ++ (" missing string field " ++ ("'" ++ key ++ "'"))
    rw [hquoted key hkey, String.append_assoc]
  simp only [checks, List.mem_cons, List.not_mem_nil, or_false] at h
  rcases h with rfl | rfl | rfl | rfl | rfl
  · rfl
  · exact hmissing _ (by simp)
  · exact hmissing _ (by simp)
  · rfl
  · rfl

/-- The place of an entry ends at the one bracket that closes, so a message tells the entry and the check. -/
theorem eq_of_message_eq {i j : Nat} {c d : EntryFault} (hc : c ∈ checks) (hd : d ∈ checks)
    (h : (Fault.entry i c).message = (Fault.entry j d).message) : i = j ∧ c = d := by
  have hdigits : ∀ n : Nat, ']' ∉ (toString n).toList := by
    intro n hn
    cases Nat.isDigit_of_mem_toDigits (by decide) (by decide) (String.toList_ofList ▸ hn)
  have hwording : ∀ c ∈ checks, ']' ∉ c.wording.toList := by decide +kernel
  have hinj : ∀ c ∈ checks, ∀ d ∈ checks, c.wording = d.wording → c = d := by decide +kernel
  rw [message_entry hc, message_entry hd, ← String.toList_inj] at h
  simp only [String.toList_append, List.append_assoc, List.append_cancel_left_eq] at h
  obtain ⟨hplace, -, hrest⟩ := (List.append_cons_inj_of_notMem (hdigits i) (hwording c hc)).1 h
  exact ⟨Nat.repr_inj.1 (String.toList_inj.1 hplace), hinj c hc d hd (String.toList_inj.1 hrest)⟩

/-! ## Reading back -/

theorem readsEntry_toJson_iff {m : Method} : ReadsEntry m.toJson m ↔ m.qualifiedName ≠ "" ∧ m.returnType ≠ "" :=
  ⟨fun h => ⟨h.name_ne, h.returned_ne⟩, fun ⟨hname, hreturn⟩ =>
    ⟨rfl, rfl, hname, rfl, hreturn, .texts m.argumentTypes, .bool m.isStatic⟩⟩

theorem ofDocument_toDocument_iff {ms : List Method} :
    ofDocument (toDocument ms) = .ok ms ↔ ∀ m ∈ ms, m.qualifiedName ≠ "" ∧ m.returnType ≠ "" := by
  have hfield : ofDocument (toDocument ms) = ofEntries 0 (ms.map toJson) := rfl
  rw [hfield, ofEntries_eq_ok_iff, List.forall₂_map_left_iff, List.forall₂_same]
  exact forall₂_congr fun m _ => readsEntry_toJson_iff

/-- A document is read exactly if it has the shape of a list of methods, and then it gives the methods that it
stands for. Any other is refused as a methods file, for the first entry at fault and the first check that this
fails, and the message tells both. Methods with names and return types come back from the document that lists
them. -/
theorem ofDocument_schema (document : Json) :
    (∀ ms, ofDocument document = .ok ms ↔ Reads document ms) ∧
    (∀ fault, ofDocument document = .error fault ↔ Refused document fault) ∧
    (∀ fault : Fault, fault.kind = .methodsFile) ∧
    (∀ check ∈ checks, ∀ position, (Fault.entry position check).message =
      "methods[" ++ toString position ++ "]" ++ check.wording) ∧
    (∀ i j, ∀ c ∈ checks, ∀ d ∈ checks, (Fault.entry i c).message = (Fault.entry j d).message → i = j ∧ c = d) ∧
    ∀ ms, ofDocument (toDocument ms) = .ok ms ↔ ∀ m ∈ ms, m.qualifiedName ≠ "" ∧ m.returnType ≠ "" :=
  ⟨fun _ => ofDocument_eq_ok_iff, fun _ => ofDocument_eq_error_iff, fun _ => rfl,
    fun _ hcheck position => message_entry hcheck position, fun _ _ _ hc _ hd => eq_of_message_eq hc hd,
    fun _ => ofDocument_toDocument_iff⟩

/-- A number is no boolean, and the fault of the first entry hides that of the second one. -/
example : ofDocument (.object [("methods", .array
      [.object [("methodName", .string "a.b"), ("returnType", .string "void"), ("isStatic", .int 0)], .null])]) =
    .error (.entry 0 .isStatic) := by
  decide +kernel

end JniSignatures.Method
