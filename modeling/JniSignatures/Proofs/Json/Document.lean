import Mathlib
import JniSignatures.Files.Tree
import JniSignatures.Proofs.Json.RoundTrip
import JniSignatures.Proofs.Text.Utf8
/-!
# Documents in files

A written document consists of printable characters of ASCII and line feeds. UTF-8 gives back any text, and
without a carriage return its line ends stay as they are, so `Document.read` gives back the value that was
written. The values that are read back also agree with those that were written.
-/

namespace JniSignatures

namespace Text

/-- A line feed or a printable character of ASCII. -/
def IsPlain (c : Char) : Prop :=
  c = '\n' ∨ (0x20 ≤ c.toNat ∧ c.toNat < 0x7F)

instance : DecidablePred IsPlain :=
  fun c => inferInstanceAs (Decidable (c = '\n' ∨ (0x20 ≤ c.toNat ∧ c.toNat < 0x7F)))

theorem unifyNewlines_of_plain {cs : List Char} (h : ∀ c ∈ cs, c ≠ '\r') : unifyNewlines cs = cs := by
  induction cs with
  | nil => rfl
  | cons c cs ih =>
    have hc := h c List.mem_cons_self
    rw [unifyNewlines, ih fun d hd => h d (List.mem_cons_of_mem _ hd)]
    all_goals
      intros
      contradiction

end Text

namespace Json

open Text (IsPlain)

/-! ## The characters of a document -/

theorem isPlain_digitChar : ∀ d < 16, IsPlain (Nat.digitChar d) := by decide

theorem isPlain_toDigits {n : Nat} : ∀ c ∈ Nat.toDigits 10 n, IsPlain c := by
  intro c hc
  have hd := Nat.isDigit_of_mem_toDigits (by decide) (by decide) hc
  simp only [Char.isDigit, Bool.and_eq_true, decide_eq_true_eq, ge_iff_le, UInt32.le_iff_toNat_le] at hd
  have hlow : ('0' : Char).val.toNat = 48 := rfl
  have hhigh : ('9' : Char).val.toNat = 57 := rfl
  rw [hlow, hhigh] at hd
  simp only [IsPlain, Char.toNat]
  omega

theorem isPlain_int (n : Int) : ∀ c ∈ (toString n).toList, IsPlain c := by
  intro c hc
  rw [toString_int] at hc
  split at hc
  · rcases List.mem_cons.1 hc with rfl | hc
    · decide
    · exact isPlain_toDigits c hc
  · exact isPlain_toDigits c hc

theorem isPlain_unitEscape {n : Nat} (h : n < 0x10000) : ∀ c ∈ unitEscape n, IsPlain c := by
  intro c hc
  rw [unitEscape, Text.hex_four h] at hc
  simp only [List.mem_cons, List.not_mem_nil, or_false] at hc
  rcases hc with rfl | rfl | rfl | rfl | rfl | rfl
  · decide
  · decide
  all_goals exact isPlain_digitChar _ (by omega)

theorem isPlain_writePoint (c : CodePoint) : ∀ d ∈ writePoint c, IsPlain d := by
  have hlt := c.isLt
  unfold writePoint
  simp only
  split_ifs with h1 h2 h3 h4 h5 h6 h7 h8 h9
  · simp [IsPlain]
  · simp [IsPlain]
  · simp [IsPlain]
  · simp [IsPlain]
  · simp [IsPlain]
  · simp [IsPlain]
  · simp [IsPlain]
  · refine List.forall_mem_singleton.2 (.inr ?_)
    rwa [Char.toNat_ofNat, if_pos (.inl (by omega))]
  · exact isPlain_unitEscape h9
  · exact List.forall_mem_append.2 ⟨isPlain_unitEscape (by omega), isPlain_unitEscape (by omega)⟩

theorem isPlain_quote : IsPlain '"' := by decide

theorem isPlain_writeString (s : Text) : ∀ c ∈ writeString s, IsPlain c := by
  refine List.forall_mem_append.2 ⟨List.forall_mem_cons.2 ⟨isPlain_quote, fun c hc => ?_⟩,
    List.forall_mem_singleton.2 isPlain_quote⟩
  obtain ⟨d, -, hd⟩ := List.mem_flatMap.1 hc
  exact isPlain_writePoint d c hd

theorem isPlain_lineBreak (level : Nat) : ∀ c ∈ lineBreak level, IsPlain c := by
  intro c hc
  rcases List.mem_cons.1 hc with rfl | hc
  · decide
  · rw [List.eq_of_mem_replicate hc]
    decide

mutual

theorem isPlain_write (j : Json) (hp : j.Plain) (level : Nat) : ∀ c ∈ write level j, IsPlain c := by
  match j with
  | .null => exact (by simp [IsPlain] : ∀ c ∈ "null".toList, IsPlain c)
  | .bool true => exact (by simp [IsPlain] : ∀ c ∈ "true".toList, IsPlain c)
  | .bool false => exact (by simp [IsPlain] : ∀ c ∈ "false".toList, IsPlain c)
  | .int n => exact isPlain_int n
  | .float x => exact hp.elim
  | .string s => exact isPlain_writeString s
  | .array [] => exact (by simp [IsPlain] : ∀ c ∈ ['[', ']'], IsPlain c)
  | .array (item :: items) =>
    have hitem := isPlain_write item hp.1 (level + 1)
    have hitems := isPlain_writeItems items hp.2 (level + 1)
    intro c hc
    simp only [write, List.mem_append, List.mem_cons, List.not_mem_nil, or_false] at hc
    rcases hc with ((((rfl | hc) | hc) | hc) | hc) | rfl
    · simp [IsPlain]
    · exact isPlain_lineBreak _ c hc
    · exact hitem c hc
    · exact hitems c hc
    · exact isPlain_lineBreak _ c hc
    · simp [IsPlain]
  | .object [] => exact (by simp [IsPlain] : ∀ c ∈ ['\x7b', '\x7d'], IsPlain c)
  | .object ((key, value) :: fields) =>
    have hvalue := isPlain_write value hp.2.2.1 (level + 1)
    have hfields := isPlain_writeFields fields hp.2.2.2 (level + 1)
    intro c hc
    simp only [write, List.mem_append, List.mem_cons, List.not_mem_nil, or_false] at hc
    rcases hc with (((((rfl | hc) | hc) | rfl | rfl | hc) | hc) | hc) | rfl
    · simp [IsPlain]
    · exact isPlain_lineBreak _ c hc
    · exact isPlain_writeString key c hc
    · simp [IsPlain]
    · simp [IsPlain]
    · exact hvalue c hc
    · exact hfields c hc
    · exact isPlain_lineBreak _ c hc
    · simp [IsPlain]

theorem isPlain_writeItems (items : List Json) (hp : ItemsPlain items) (level : Nat) :
    ∀ c ∈ writeItems level items, IsPlain c := by
  match items with
  | [] => exact List.forall_mem_nil _
  | item :: items =>
    have hitem := isPlain_write item hp.1 level
    have hitems := isPlain_writeItems items hp.2 level
    intro c hc
    simp only [writeItems, List.mem_append, List.mem_cons] at hc
    rcases hc with ((rfl | hc) | hc) | hc
    · simp [IsPlain]
    · exact isPlain_lineBreak _ c hc
    · exact hitem c hc
    · exact hitems c hc

theorem isPlain_writeFields (fields : List (Text × Json)) (hp : FieldsPlain fields) (level : Nat) :
    ∀ c ∈ writeFields level fields, IsPlain c := by
  match fields with
  | [] => exact List.forall_mem_nil _
  | (key, value) :: fields =>
    have hvalue := isPlain_write value hp.2.1 level
    have hfields := isPlain_writeFields fields hp.2.2 level
    intro c hc
    simp only [writeFields, List.mem_append, List.mem_cons] at hc
    rcases hc with (((rfl | hc) | hc) | rfl | rfl | hc) | hc
    · simp [IsPlain]
    · exact isPlain_lineBreak _ c hc
    · exact isPlain_writeString key c hc
    · simp [IsPlain]
    · simp [IsPlain]
    · exact hvalue c hc
    · exact hfields c hc

end

/-! ## The whole document -/

theorem isPlain_document {j : Json} (hp : j.Plain) : ∀ c ∈ document j, IsPlain c :=
  List.forall_mem_append.2 ⟨isPlain_write j hp 0, List.forall_mem_singleton.2 (.inl rfl)⟩

/-- A written document denotes its value. -/
theorem ofText_document {depth : Nat} {j : Json} (hp : j.Plain) (hw : j.isWritable) (hd : j.nesting ≤ depth) :
    ofText depth (document j) = .ok j := by
  have hroom : ([] : List Frame).length + j.nesting ≤ depth := by rwa [List.length_nil, Nat.zero_add]
  have htake : Takes depth ⟨[], .value⟩ (write 0 j) ['\n'] (State.deliver j []) :=
    takes_write j hp hw (opens_value []) hroom 0 ⟨_, _, rfl, .inr rfl⟩
  unfold ofText
  split
  · rename_i htext
    have hmark := isPlain_document hp '\ufeff' (htext ▸ List.mem_cons_self)
    exact absurd hmark (by simp [IsPlain])
  · exact htake _ 0

end Json

/-- A written document is read from its file as it is. -/
theorem Document.read_eq_ofText {depth : Nat} {j : Json} (hp : j.Plain) :
    Document.read depth (Files.Content.ofText (Json.document j)).toBytes =
      Document.ofText depth (Json.document j) := by
  have hplain := Json.isPlain_document hp
  have hreturn : ∀ c ∈ Json.document j, c ≠ '\r' := by
    rintro c hc rfl
    exact absurd (hplain _ hc) (by simp [Text.IsPlain])
  have hdecode : Text.Utf8.decode (Text.Utf8.encode (Json.document j)) = .ok (Json.document j) :=
    Text.Utf8.decode_eq_ok_iff.2 rfl
  rw [Files.Content.ofText, Document.read, hdecode]
  simp only [Text.unifyNewlines_of_plain hreturn]

/-- A written document is read back from its file. -/
theorem Document.read_document {depth : Nat} {j : Json} (hp : j.Plain) (hw : j.isWritable) (hd : j.nesting ≤ depth) :
    Document.read depth (Files.Content.ofText (Json.document j)).toBytes = .ok j := by
  rw [read_eq_ofText hp, Document.ofText, Json.ofText_document hp hw hd]

end JniSignatures
