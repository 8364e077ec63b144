import Mathlib
import JniSignatures.Methods.Load
import JniSignatures.Proofs.Files.Writing
import JniSignatures.Proofs.Json.Document
import JniSignatures.Proofs.Json.Nesting
import JniSignatures.Proofs.Methods.Schema
import JniSignatures.Proofs.Text.Utf8
/-!
# How loading a methods file ends

A methods file is opened, decoded, read as JSON and read by the schema, and each of these may refuse it
(`Loads`). Only what the system, the grammar of JSON and the schema refuse is told as a fault of the methods file.
A path that never reaches the system, bytes that are no UTF-8, an integer of too many digits and a container
nested too deep are told as failures of another kind, and nothing else is (`load_confined_iff`).
-/

namespace JniSignatures

namespace Method

open Files (Content Errno Tree)
open Document (supportedDepth)
open Text (unifyNewlines)
open Text.Utf8 (encode)

/-- The file at a path holds a text: its bytes are the text in UTF-8, but for the line ends, each of which is one
line feed in the text. -/
def Stands (tree : Tree) (path : String) (text : List Char) : Prop :=
  ∃ content cs, tree.read path = .ok content ∧ encode cs = content.toBytes ∧ text = unifyNewlines cs

/-- How loading ends, by the first step that refuses the file. -/
inductive Loads (depth : Nat) (tree : Tree) (path : String) : Except LoadFault (List Method) → Prop
  /-- The path never reaches the system. -/
  | nullCharacter (null : '\x00' ∈ path.toList) : Loads depth tree path (.error .nullCharacter)
  | unreadable {errno : Errno} (refused : tree.read path = .error (.refused errno path)) :
      Loads depth tree path (.error (.unreadable path errno))
  | undecodable {content : Content} {refusal : Text.Utf8.Refusal} (read : tree.read path = .ok content)
      (refused : Text.Utf8.decode content.toBytes = .error refusal) :
      Loads depth tree path (.error (.undecodable refusal))
  | longInt {text : List Char} {digits : Nat} (stands : Stands tree path text)
      (breaks : Json.BreaksOff depth text digits) : Loads depth tree path (.error (.longInt digits))
  | tooDeep {text : List Char} {container : Json.Container} (stands : Stands tree path text)
      (nested : Json.TooDeep depth text container) : Loads depth tree path (.error (.tooDeep container))
  | malformed {text : List Char} {fault : Json.Fault} {offset : Nat} (stands : Stands tree path text)
      (refused : Json.ofText depth text = .error (.malformed fault offset)) :
      Loads depth tree path (.error (.malformed path fault (Text.placeAt text offset)))
  | schema {text : List Char} {document : Json} {fault : Fault} (stands : Stands tree path text)
      (denotes : Json.ofText depth text = .ok document) (refused : Refused document fault) :
      Loads depth tree path (.error (.schema fault))
  | methods {text : List Char} {document : Json} {ms : List Method} (stands : Stands tree path text)
      (denotes : Json.ofText depth text = .ok document) (reads : Reads document ms) : Loads depth tree path (.ok ms)

section Loading

variable {depth : Nat} {tree : Tree} {path : String} {text : List Char} {document : Json}
  {result : Except LoadFault (List Method)}

theorem loads_load (depth : Nat) (tree : Tree) (path : String) : Loads depth tree path (load depth tree path) := by
  unfold load
  by_cases hnull : '\x00' ∈ path.toList
  · rw [Tree.read_of_null hnull]
    exact .nullCharacter hnull
  cases hread : tree.read path with
  | error fault =>
    obtain ⟨errno, rfl⟩ := Tree.refused_of_read hnull hread
    exact .unreadable hread
  | ok content =>
    simp only [Document.read]
    cases hdecode : Text.Utf8.decode content.toBytes with
    | error refusal => exact .undecodable hread hdecode
    | ok cs =>
      have hstands : Stands tree path (unifyNewlines cs) :=
        ⟨content, cs, hread, Text.Utf8.decode_eq_ok_iff.1 hdecode, rfl⟩
      simp only [Document.ofText]
      cases htext : Json.ofText depth (unifyNewlines cs) with
      | error refusal =>
        cases refusal with
        | malformed fault offset => exact .malformed hstands htext
        | longInt digits => exact .longInt hstands (Json.ofText_eq_longInt_iff.1 htext)
        | tooDeep container => exact .tooDeep hstands (Json.ofText_eq_tooDeep_iff.1 htext)
      | ok document =>
        simp only
        cases hdocument : ofDocument document with
        | error fault => exact .schema hstands htext (ofDocument_eq_error_iff.1 hdocument)
        | ok ms => exact .methods hstands htext (ofDocument_eq_ok_iff.1 hdocument)

/-- The document of a file is read off the text that stands in it. -/
theorem read_of_stands (depth : Nat) (h : Stands tree path text) :
    ∃ content, tree.read path = .ok content ∧ Document.read depth content.toBytes = Document.ofText depth text := by
  obtain ⟨content, cs, hread, hcs, rfl⟩ := h
  refine ⟨content, hread, ?_⟩
  simp only [Document.read, Text.Utf8.decode_eq_ok_iff.2 hcs]

theorem Loads.eq_load (h : Loads depth tree path result) : load depth tree path = result := by
  cases h with
  | nullCharacter null => rw [load, Tree.read_of_null null]
  | unreadable refused => rw [load, refused]
  | undecodable read refused =>
    rw [load, read]
    simp only [Document.read, refused]
  | longInt stands breaks =>
    obtain ⟨content, hread, hdocument⟩ := read_of_stands depth stands
    rw [load, hread]
    simp only [hdocument, Document.ofText, Json.ofText_eq_longInt_iff.2 breaks]
  | tooDeep stands nested =>
    obtain ⟨content, hread, hdocument⟩ := read_of_stands depth stands
    rw [load, hread]
    simp only [hdocument, Document.ofText, Json.ofText_eq_tooDeep_iff.2 nested]
  | malformed stands refused =>
    obtain ⟨content, hread, hdocument⟩ := read_of_stands depth stands
    rw [load, hread]
    simp only [hdocument, Document.ofText, refused]
  | schema stands denotes refused =>
    obtain ⟨content, hread, hdocument⟩ := read_of_stands depth stands
    rw [load, hread]
    simp only [hdocument, Document.ofText, denotes, ofDocument_eq_error_iff.2 refused]
  | methods stands denotes reads =>
    obtain ⟨content, hread, hdocument⟩ := read_of_stands depth stands
    rw [load, hread]
    simp only [hdocument, Document.ofText, denotes, ofDocument_eq_ok_iff.2 reads]

theorem load_eq_iff : load depth tree path = result ↔ Loads depth tree path result := by
  constructor
  · rintro rfl
    exact loads_load depth tree path
  · exact Loads.eq_load

/-- Loading keeps to the two ends that it has for a methods file: it returns the methods that the document in the
file lists, or it refuses the file as a methods file. -/
inductive Confined (depth : Nat) (tree : Tree) (path : String) : Prop
  | returns {content : Content} {document : Json} {ms : List Method} (read : tree.read path = .ok content)
      (decoded : Document.read depth content.toBytes = .ok document) (listed : ofDocument document = .ok ms)
      (loaded : load depth tree path = .ok ms) : Confined depth tree path
  | refuses {fault : LoadFault} (failed : load depth tree path = .error fault) (kind : fault.kind = .methodsFile) :
      Confined depth tree path

theorem confined_iff_kind :
    Confined depth tree path ↔ ∀ fault, load depth tree path = .error fault → fault.kind = .methodsFile := by
  constructor
  · rintro (⟨-, -, -, hload⟩ | ⟨hload, hkind⟩) fault h
    · cases hload.symm.trans h
    · cases hload.symm.trans h
      exact hkind
  · intro h
    cases hload : load depth tree path with
    | error fault => exact .refuses hload (h fault hload)
    | ok ms =>
      cases load_eq_iff.1 hload with
      | methods stands denotes reads =>
        obtain ⟨content, hread, hdocument⟩ := read_of_stands depth stands
        rw [Document.ofText, denotes] at hdocument
        exact .returns hread hdocument (ofDocument_eq_ok_iff.2 reads) hload

theorem LoadFault.kind_cases (fault : LoadFault) :
    fault.kind = .methodsFile ∨ fault.kind = .unicodeDecode ∨ fault.kind = .value ∨ fault.kind = .recursion := by
  cases fault with
  | nullCharacter => exact .inr (.inr (.inl rfl))
  | undecodable => exact .inr (.inl rfl)
  | longInt => exact .inr (.inr (.inl rfl))
  | tooDeep => exact .inr (.inr (.inr rfl))
  | unreadable => exact .inl rfl
  | malformed => exact .inl rfl
  | schema => exact .inl rfl

theorem fails_undecodable_iff : (∃ fault, load depth tree path = .error fault ∧ fault.kind = .unicodeDecode) ↔
    ∃ content, tree.read path = .ok content ∧ ∀ cs, encode cs ≠ content.toBytes := by
  constructor
  · rintro ⟨fault, hload, hkind⟩
    cases load_eq_iff.1 hload with
    | undecodable read refused => exact ⟨_, read, Text.Utf8.decode_refused_iff.1 ⟨_, refused⟩⟩
    | _ => cases hkind
  · rintro ⟨content, hread, hno⟩
    obtain ⟨refusal, hrefused⟩ := Text.Utf8.decode_refused_iff.2 hno
    exact ⟨_, load_eq_iff.2 (.undecodable hread hrefused), rfl⟩

theorem fails_value_iff : (∃ fault, load depth tree path = .error fault ∧ fault.kind = .value) ↔
    '\x00' ∈ path.toList ∨ ∃ text digits, Stands tree path text ∧ Json.BreaksOff depth text digits := by
  constructor
  · rintro ⟨fault, hload, hkind⟩
    cases load_eq_iff.1 hload with
    | nullCharacter null => exact .inl null
    | longInt stands breaks => exact .inr ⟨_, _, stands, breaks⟩
    | _ => cases hkind
  · rintro (hnull | ⟨text, digits, hstands, hbreaks⟩)
    · exact ⟨_, load_eq_iff.2 (.nullCharacter hnull), rfl⟩
    · exact ⟨_, load_eq_iff.2 (.longInt hstands hbreaks), rfl⟩

theorem fails_recursion_iff : (∃ fault, load depth tree path = .error fault ∧ fault.kind = .recursion) ↔
    ∃ text container, Stands tree path text ∧ Json.TooDeep depth text container := by
  constructor
  · rintro ⟨fault, hload, hkind⟩
    cases load_eq_iff.1 hload with
    | tooDeep stands nested => exact ⟨_, _, stands, nested⟩
    | _ => cases hkind
  · rintro ⟨text, container, hstands, hnested⟩
    exact ⟨_, load_eq_iff.2 (.tooDeep hstands hnested), rfl⟩

theorem Stands.unique {text' : List Char} (h : Stands tree path text) (h' : Stands tree path text') : text = text' := by
  obtain ⟨content, cs, hread, hcs, rfl⟩ := h
  obtain ⟨content', cs', hread', hcs', rfl⟩ := h'
  obtain rfl := Except.ok.inj (hread.symm.trans hread')
  have hdecode := Text.Utf8.decode_eq_ok_iff.2 hcs
  rw [Except.ok.inj (hdecode.symm.trans (Text.Utf8.decode_eq_ok_iff.2 hcs'))]

/-- A text can be read as far as the decoder of documents goes: it does not break off at an integer of too many
digits, and is not nested too deep. -/
def Usable (depth : Nat) (text : List Char) : Prop :=
  (∀ digits, ¬ Json.BreaksOff depth text digits) ∧ ∀ container, ¬ Json.TooDeep depth text container

theorem confined_iff : Confined depth tree path ↔
    '\x00' ∉ path.toList ∧ ∀ content, tree.read path = .ok content →
      ∃ text, Stands tree path text ∧ Usable depth text := by
  rw [confined_iff_kind]
  constructor
  · intro h
    -- A failure of another kind cannot be, so there is none for the path, the bytes, an integer or the nesting.
    have hother {kind : Kind} (hne : kind ≠ .methodsFile) :
        ¬ ∃ fault, load depth tree path = .error fault ∧ fault.kind = kind := by
      rintro ⟨fault, hload, rfl⟩
      exact hne (h fault hload)
    have hdecodes := mt fails_undecodable_iff.2 (hother (by decide))
    have hvalue := mt fails_value_iff.2 (hother (by decide))
    have hnesting := mt fails_recursion_iff.2 (hother (by decide))
    refine ⟨fun hnull => hvalue (.inl hnull), fun content hread => ?_⟩
    by_contra hno
    refine hdecodes ⟨content, hread, fun cs hcs => ?_⟩
    have hstands : Stands tree path (unifyNewlines cs) := ⟨content, cs, hread, hcs, rfl⟩
    exact hno ⟨_, hstands, fun digits hbreaks => hvalue (.inr ⟨_, digits, hstands, hbreaks⟩),
      fun container hnested => hnesting ⟨_, container, hstands, hnested⟩⟩
  · rintro ⟨hnull, hreadable⟩ fault hload
    have usable {text : List Char} (hstands : Stands tree path text) : Usable depth text := by
      obtain ⟨content, _, hread, -⟩ := id hstands
      obtain ⟨text', hstands', husable⟩ := hreadable content hread
      rwa [hstands.unique hstands']
    rcases fault.kind_cases with hkind | hkind | hkind | hkind
    · exact hkind
    · obtain ⟨content, hread, hno⟩ := fails_undecodable_iff.1 ⟨fault, hload, hkind⟩
      obtain ⟨text, ⟨content', cs, hread', hcs, -⟩, -⟩ := hreadable content hread
      obtain rfl := Except.ok.inj (hread.symm.trans hread')
      exact absurd hcs (hno cs)
    · rcases fails_value_iff.1 ⟨fault, hload, hkind⟩ with hmem | ⟨text, digits, hstands, hbreaks⟩
      · exact absurd hmem hnull
      · exact absurd hbreaks ((usable hstands).1 digits)
    · obtain ⟨text, container, hstands, hnested⟩ := fails_recursion_iff.1 ⟨fault, hload, hkind⟩
      exact absurd hnested ((usable hstands).2 container)

/-- Loading ends as the first step says that refuses the file. It keeps to its two ends exactly if the path has no
null character and what is read there, if anything, is a text in UTF-8 that neither breaks off at an integer of
too many digits nor is nested too deep. Otherwise it fails as a decoder does if the bytes are no UTF-8, for the
nesting if that is too deep, and for an unusable value in the two other cases, and in no other way. -/
theorem load_confined_iff (depth : Nat) (tree : Tree) (path : String) :
    (∀ result, load depth tree path = result ↔ Loads depth tree path result) ∧
    (Confined depth tree path ↔ '\x00' ∉ path.toList ∧ ∀ content, tree.read path = .ok content →
      ∃ text, Stands tree path text ∧ Usable depth text) ∧
    ((∃ fault, load depth tree path = .error fault ∧ fault.kind = .unicodeDecode) ↔
      ∃ content, tree.read path = .ok content ∧ ∀ cs, encode cs ≠ content.toBytes) ∧
    ((∃ fault, load depth tree path = .error fault ∧ fault.kind = .value) ↔
      '\x00' ∈ path.toList ∨ ∃ text digits, Stands tree path text ∧ Json.BreaksOff depth text digits) ∧
    ((∃ fault, load depth tree path = .error fault ∧ fault.kind = .recursion) ↔
      ∃ text container, Stands tree path text ∧ Json.TooDeep depth text container) ∧
    ∀ fault, load depth tree path = .error fault →
      fault.kind = .methodsFile ∨ fault.kind = .unicodeDecode ∨ fault.kind = .value ∨ fault.kind = .recursion :=
  ⟨fun _ => load_eq_iff, confined_iff, fails_undecodable_iff, fails_value_iff, fails_recursion_iff,
    fun fault _ => fault.kind_cases⟩

/-- A directory with a methods file. -/
def holding (content : Content) : Tree :=
  ⟨["w"], [(["w", "m.json"], .file content false)]⟩

theorem read_holding (content : Content) : (holding content).read "m.json" = .ok content :=
  rfl

theorem not_confined {fault : LoadFault} (h : load depth tree path = .error fault)
    (hkind : fault.kind ≠ .methodsFile) : ¬ Confined depth tree path :=
  fun hconfined => hkind (confined_iff_kind.1 hconfined fault h)

theorem longNatural_ones {n : Nat} (h : Json.maxIntDigits < n) : Json.LongNatural (List.replicate n '1') n := by
  have hones : Json.LongNatural (List.replicate n '1' ++ []) (List.replicate n '1').length := by
    refine .mk (fun d hd => ?_) ?_ ?_ rfl rfl rfl
    · rw [List.eq_of_mem_replicate hd]
      rfl
    · rw [List.head?_replicate]
      split <;> decide
    · rwa [List.length_replicate]
  rwa [List.append_nil, List.length_replicate] at hones

/-- A byte that starts no sequence, an integer of 4301 digits, and a path with a null character. -/
theorem garbled_unconfined :
    (load supportedDepth (holding (.bytes [0xFF])) "m.json" = .error (.undecodable ⟨0xFF, 0, 1, .invalidStart⟩) ∧
      ¬ Confined supportedDepth (holding (.bytes [0xFF])) "m.json") ∧
    (load supportedDepth (holding (.ofText (List.replicate 4301 '1'))) "m.json" = .error (.longInt 4301) ∧
      ¬ Confined supportedDepth (holding (.ofText (List.replicate 4301 '1'))) "m.json") ∧
    (load supportedDepth (holding (.bytes [])) "m.json\x00" = .error .nullCharacter ∧
      ¬ Confined supportedDepth (holding (.bytes [])) "m.json\x00") := by
  have hbyte : load supportedDepth (holding (.bytes [0xFF])) "m.json" =
      .error (.undecodable ⟨0xFF, 0, 1, .invalidStart⟩) :=
    load_eq_iff.2 (.undecodable (read_holding _) rfl)
  have hnull : load supportedDepth (holding (.bytes [])) "m.json\x00" = .error .nullCharacter :=
    load_eq_iff.2 (.nullCharacter (by decide))
  have hlong : load supportedDepth (holding (.ofText (List.replicate 4301 '1'))) "m.json" = .error (.longInt 4301) := by
    have hplain : unifyNewlines (List.replicate 4301 '1') = List.replicate 4301 '1' :=
      Text.unifyNewlines_of_plain fun c hc => by rw [List.eq_of_mem_replicate hc]; decide
    have hbreaks : Json.BreaksOff supportedDepth (List.replicate 4301 '1') 4301 :=
      Json.breaksOff_of_longLiteral (.natural (longNatural_ones (by decide)))
    exact load_eq_iff.2 (.longInt ⟨_, _, read_holding _, rfl, hplain.symm⟩ hbreaks)
  exact ⟨⟨hbyte, not_confined hbyte (by decide)⟩, ⟨hlong, not_confined hlong (by decide)⟩,
    hnull, not_confined hnull (by decide)⟩

end Loading

end Method

end JniSignatures
