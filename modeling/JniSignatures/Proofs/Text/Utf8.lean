import Mathlib
import JniSignatures.Proofs.Text.CodePoint
import JniSignatures.Text.Utf8
/-!
# What is UTF-8

Decoding accepts exactly the bytes that encode a text, and gives this text (`decode_eq_ok_iff`). The bytes of
one code point are a single byte, or a lead byte with the further bytes that it calls for (`Sequence`). Bytes
are taken sequence by sequence (`decodeFrom_eq_ok_iff`), and a sequence is just what the encoder writes for its
code point (`sequence_iff`).
-/

namespace JniSignatures.Text.Utf8

/-- A byte lies in a span. -/
def Span.Holds (s : Span) (b : UInt8) : Prop :=
  s.low ≤ b.toNat ∧ b.toNat ≤ s.high

/-- The bits read so far, with those of further bytes behind them. -/
def extend (value : Nat) (tail : List UInt8) : Nat :=
  tail.foldl (fun v b => v * 64 + (b.toNat - 0x80)) value

theorem extend_nil (value : Nat) : extend value [] = value :=
  rfl

theorem extend_cons (value : Nat) (b : UInt8) (tail : List UInt8) :
    extend value (b :: tail) = extend (value * 64 + (b.toNat - 0x80)) tail := by
  unfold extend
  rw [List.foldl_cons]

/-- The bytes of one code point, as the table of lead bytes has them. -/
inductive Sequence : List UInt8 → Nat → Prop
  | single {b : UInt8} (low : b.toNat < 0x80) : Sequence [b] b.toNat
  | led {b : UInt8} {value : Nat} {spans : List Span} {tail : List UInt8}
      (lead : lead? b.toNat = some (value, spans)) (fits : List.Forall₂ Span.Holds spans tail) :
      Sequence (b :: tail) (extend value tail)

/-! ## Lead bytes -/

/-- What the second of three bytes may be: not what makes the code point small enough for two, nor a surrogate. -/
def secondOfThree (value : Nat) : Span :=
  ⟨if value = 0 then 0xA0 else 0x80, if value = 0xD then 0x9F else 0xBF⟩

/-- What the second of four bytes may be: not what makes the code point small enough for three, nor too large. -/
def secondOfFour (value : Nat) : Span :=
  ⟨if value = 0 then 0x90 else 0x80, if value = 4 then 0x8F else 0xBF⟩

theorem lead?_two : ∀ v < 0x20, 2 ≤ v → lead? (v + 0xC0) = some (v, [anyTail]) := by decide

theorem lead?_three : ∀ v < 0x10, lead? (v + 0xE0) = some (v, [secondOfThree v, anyTail]) := by decide

theorem lead?_four : ∀ v < 5, lead? (v + 0xF0) = some (v, [secondOfFour v, anyTail, anyTail]) := by decide

/-- Single bytes and continuations lead nothing, nor does what would start an overlong form or too large a value. -/
theorem lead?_eq_none {b : Nat} (h : b < 0xC2 ∨ 0xF5 ≤ b) : lead? b = none := by
  unfold lead?
  split_ifs
  all_goals first | rfl | omega

/-- The lead bytes by the number of bytes that they call for. -/
inductive Leads (value : Nat) : Nat → List Span → Prop
  | two (low : 2 ≤ value) (high : value < 0x20) : Leads value (value + 0xC0) [anyTail]
  | three (high : value < 0x10) : Leads value (value + 0xE0) [secondOfThree value, anyTail]
  | four (high : value < 5) : Leads value (value + 0xF0) [secondOfFour value, anyTail, anyTail]

theorem lead?_eq_some_iff {b value : Nat} {spans : List Span} :
    lead? b = some (value, spans) ↔ Leads value b spans := by
  constructor
  · intro h
    have hb : 0xC2 ≤ b ∧ b < 0xF5 := by
      by_contra hb
      rw [lead?_eq_none (by omega)] at h
      cases h
    by_cases h₂ : b < 0xE0
    · obtain ⟨v, rfl⟩ := Nat.exists_eq_add_of_le' (show 0xC0 ≤ b by omega)
      rw [lead?_two v (by omega) (by omega)] at h
      cases h
      exact .two (by omega) (by omega)
    by_cases h₃ : b < 0xF0
    · obtain ⟨v, rfl⟩ := Nat.exists_eq_add_of_le' (show 0xE0 ≤ b by omega)
      rw [lead?_three v (by omega)] at h
      cases h
      exact .three (by omega)
    · obtain ⟨v, rfl⟩ := Nat.exists_eq_add_of_le' (show 0xF0 ≤ b by omega)
      rw [lead?_four v (by omega)] at h
      cases h
      exact .four (by omega)
  · intro h
    cases h with
    | two low high => exact lead?_two value high low
    | three high => exact lead?_three value high
    | four high => exact lead?_four value high

theorem Leads.exists_cons {b value : Nat} {spans : List Span} (h : Leads value b spans) :
    ∃ next later, spans = next :: later := by
  cases h <;> exact ⟨_, _, rfl⟩

/-! ## Sequence by sequence -/

section Decoding

variable {p : Pending} {offset : Nat} {bytes : List UInt8} {cs : List Char}

theorem add_length_cons (offset : Nat) (b : UInt8) (tail : List UInt8) :
    offset + (b :: tail).length = offset + 1 + tail.length := by
  rw [List.length_cons]
  omega

theorem map_cons_eq_ok_iff {ε α : Type} {x : Except ε (List α)} {a : α} {as : List α} :
    x.map (a :: ·) = .ok as ↔ ∃ rest, x = .ok rest ∧ as = a :: rest := by
  cases x <;> simp [Except.map, eq_comm]

/-- A sequence that is under way goes on with a byte for each span that is still awaited. -/
theorem decodeFrom_some_eq_ok_iff : decodeFrom offset (some p) bytes = .ok cs ↔
    ∃ tail rest after, bytes = tail ++ rest ∧ List.Forall₂ Span.Holds (p.next :: p.later) tail ∧
      cs = Char.ofNat (extend p.value tail) :: after ∧ decodeFrom (offset + tail.length) none rest = .ok after := by
  induction bytes generalizing p offset with
  | nil =>
    constructor
    · intro h
      cases h
    · rintro ⟨tail, rest, after, hbytes, hfits, -⟩
      obtain ⟨rfl, -⟩ := List.append_eq_nil_iff.1 hbytes.symm
      cases hfits
  | cons b bytes ih =>
    rw [decodeFrom]
    by_cases hspan : p.next.low ≤ b.toNat ∧ b.toNat ≤ p.next.high
    · rw [if_pos hspan]
      cases hlater : p.later with
      | nil =>
        simp only
        rw [map_cons_eq_ok_iff]
        constructor
        · rintro ⟨after, hafter, rfl⟩
          exact ⟨[b], bytes, after, rfl, .cons hspan .nil, by rw [extend_cons, extend_nil], hafter⟩
        · rintro ⟨tail, rest, after, hbytes, hfits, rfl, hafter⟩
          cases hfits with
          | cons _ hnil =>
            cases hnil
            cases hbytes
            exact ⟨after, hafter, by rw [extend_cons, extend_nil]⟩
      | cons next later =>
        simp only
        rw [ih]
        constructor
        · rintro ⟨tail, rest, after, rfl, hfits, rfl, hafter⟩
          refine ⟨b :: tail, rest, after, rfl, .cons hspan hfits, by rw [extend_cons], ?_⟩
          rwa [add_length_cons]
        · rintro ⟨tail, rest, after, hbytes, hfits, rfl, hafter⟩
          cases hfits with
          | @cons _ c _ tail hc hfits =>
            cases hbytes
            refine ⟨tail, rest, after, rfl, hfits, by rw [extend_cons], ?_⟩
            rwa [add_length_cons] at hafter
    · rw [if_neg hspan]
      constructor
      · intro h
        cases h
      · rintro ⟨tail, rest, after, hbytes, hfits, -⟩
        cases hfits with
        | cons hb _ =>
          cases hbytes
          exact absurd hb hspan

/-- What is decoded is empty, or the code point of a sequence at the front and then what follows it. -/
theorem decodeFrom_eq_ok_iff : decodeFrom offset none bytes = .ok cs ↔ (bytes = [] ∧ cs = []) ∨
    ∃ seq n rest after, Sequence seq n ∧ bytes = seq ++ rest ∧ cs = Char.ofNat n :: after ∧
      decodeFrom (offset + seq.length) none rest = .ok after := by
  cases bytes with
  | nil =>
    constructor
    · intro h
      cases h
      exact .inl ⟨rfl, rfl⟩
    · rintro (⟨-, rfl⟩ | ⟨seq, n, rest, after, hseq, hbytes, -⟩)
      · rfl
      · obtain ⟨rfl, -⟩ := List.append_eq_nil_iff.1 hbytes.symm
        cases hseq
  | cons b bytes =>
    rw [decodeFrom]
    by_cases hlow : b.toNat < 0x80
    · rw [if_pos hlow, map_cons_eq_ok_iff]
      constructor
      · rintro ⟨after, hafter, rfl⟩
        exact .inr ⟨[b], _, bytes, after, .single hlow, rfl, rfl, hafter⟩
      · rintro (⟨hnil, -⟩ | ⟨seq, n, rest, after, hseq, hbytes, rfl, hafter⟩)
        · cases hnil
        · cases hseq with
          | single =>
            cases hbytes
            exact ⟨after, hafter, rfl⟩
          | led lead =>
            cases hbytes
            rw [lead?_eq_none (.inl (by omega))] at lead
            cases lead
    · rw [if_neg hlow]
      constructor
      · intro h
        split at h
        · rename_i value next later hlead
          obtain ⟨tail, rest, after, rfl, hfits, rfl, hafter⟩ := decodeFrom_some_eq_ok_iff.1 h
          refine .inr ⟨b :: tail, _, rest, after, .led hlead hfits, rfl, rfl, ?_⟩
          rwa [add_length_cons]
        · cases h
      · rintro (⟨hnil, -⟩ | ⟨seq, n, rest, after, hseq, hbytes, rfl, hafter⟩)
        · cases hnil
        · cases hseq with
          | single low =>
            cases hbytes
            exact absurd low hlow
          | @led _ value spans tail lead fits =>
            cases hbytes
            obtain ⟨next, later, rfl⟩ := (lead?_eq_some_iff.1 lead).exists_cons
            simp only [lead]
            refine decodeFrom_some_eq_ok_iff.2 ⟨tail, rest, after, rfl, fits, rfl, ?_⟩
            rwa [add_length_cons] at hafter

end Decoding

/-! ## The sequences are the encodings -/

section Encoding

variable {b x y z : UInt8} {n value : Nat} {c : Char}

theorem exists_char (h : n < 0xD800 ∨ 0xDFFF < n ∧ n < 0x110000) : ∃ c : Char, c.toNat = n :=
  ⟨Char.ofNatAux n h, Char.toNat_ofNatAux h⟩

theorem ofNat_eq {m : Nat} (h : m = b.toNat) : UInt8.ofNat m = b := by
  rw [h, UInt8.ofNat_toNat]

theorem encodeChar_one (h : c.toNat < 0x80) : String.utf8EncodeChar c = [UInt8.ofNat c.toNat] := by
  simp only [Char.toNat] at h ⊢
  rw [String.utf8EncodeChar, if_pos (by omega)]

theorem encodeChar_two (h : 0x80 ≤ c.toNat) (h' : c.toNat < 0x800) :
    String.utf8EncodeChar c = [UInt8.ofNat (c.toNat / 64 + 0xC0), UInt8.ofNat (c.toNat % 64 + 0x80)] := by
  simp only [Char.toNat] at h h' ⊢
  rw [String.utf8EncodeChar, if_neg (by omega), if_pos (by omega), Nat.mod_eq_of_lt (by omega)]

theorem encodeChar_three (h : 0x800 ≤ c.toNat) (h' : c.toNat < 0x10000) :
    String.utf8EncodeChar c = [UInt8.ofNat (c.toNat / 4096 + 0xE0), UInt8.ofNat (c.toNat / 64 % 64 + 0x80),
      UInt8.ofNat (c.toNat % 64 + 0x80)] := by
  simp only [Char.toNat] at h h' ⊢
  rw [String.utf8EncodeChar, if_neg (by omega), if_neg (by omega), if_pos (by omega), Nat.mod_eq_of_lt (by omega)]

theorem encodeChar_four (h : 0x10000 ≤ c.toNat) (h' : c.toNat < 0x110000) :
    String.utf8EncodeChar c = [UInt8.ofNat (c.toNat / 262144 + 0xF0), UInt8.ofNat (c.toNat / 4096 % 64 + 0x80),
      UInt8.ofNat (c.toNat / 64 % 64 + 0x80), UInt8.ofNat (c.toNat % 64 + 0x80)] := by
  simp only [Char.toNat] at h h' ⊢
  rw [String.utf8EncodeChar, if_neg (by omega), if_neg (by omega), if_neg (by omega), Nat.mod_eq_of_lt (by omega)]

theorem toNat_ofNat {m : Nat} (hm : m < 0x100) : (UInt8.ofNat m).toNat = m :=
  UInt8.toNat_ofNat_of_lt' hm

theorem secondOfThree_holds_iff : (secondOfThree value).Holds x ↔
    anyTail.Holds x ∧ (value = 0 → 0xA0 ≤ x.toNat) ∧ (value = 0xD → x.toNat ≤ 0x9F) := by
  simp only [secondOfThree, anyTail, Span.Holds]
  split_ifs <;> omega

theorem secondOfFour_holds_iff : (secondOfFour value).Holds x ↔
    anyTail.Holds x ∧ (value = 0 → 0x90 ≤ x.toNat) ∧ (value = 4 → x.toNat ≤ 0x8F) := by
  simp only [secondOfFour, anyTail, Span.Holds]
  split_ifs <;> omega

/-- A sequence encodes its code point. -/
theorem exists_char_of_sequence {seq : List UInt8} (h : Sequence seq n) :
    ∃ c : Char, c.toNat = n ∧ String.utf8EncodeChar c = seq := by
  cases h with
  | @single b low =>
    obtain ⟨c, hc⟩ := exists_char (n := b.toNat) (by omega)
    exact ⟨c, hc, by rw [encodeChar_one (by omega), ofNat_eq hc]⟩
  | @led b value spans tail lead fits =>
    have hleads := lead?_eq_some_iff.1 lead
    generalize hb : b.toNat = lead at hleads
    cases hleads with
    | two low high =>
      rcases fits with _ | ⟨hx, _ | _⟩
      rename_i x
      simp only [anyTail, Span.Holds] at hx
      simp only [extend_cons, extend_nil]
      obtain ⟨c, hc⟩ := exists_char (n := value * 64 + (x.toNat - 0x80)) (by omega)
      refine ⟨c, hc, ?_⟩
      rw [encodeChar_two (by omega) (by omega), ofNat_eq (b := b) (by omega), ofNat_eq (b := x) (by omega)]
    | three high =>
      rcases fits with _ | ⟨hx, _ | ⟨hy, _ | _⟩⟩
      rename_i x y
      obtain ⟨hx, hlow, hhigh⟩ := secondOfThree_holds_iff.1 hx
      simp only [anyTail, Span.Holds] at hx hy
      simp only [extend_cons, extend_nil]
      obtain ⟨c, hc⟩ := exists_char (n := (value * 64 + (x.toNat - 0x80)) * 64 + (y.toNat - 0x80)) (by omega)
      refine ⟨c, hc, ?_⟩
      rw [encodeChar_three (by omega) (by omega), ofNat_eq (b := b) (by omega), ofNat_eq (b := x) (by omega),
        ofNat_eq (b := y) (by omega)]
    | four high =>
      rcases fits with _ | ⟨hx, _ | ⟨hy, _ | ⟨hz, _ | _⟩⟩⟩
      rename_i x y z
      obtain ⟨hx, hlow, hhigh⟩ := secondOfFour_holds_iff.1 hx
      simp only [anyTail, Span.Holds] at hx hy hz
      simp only [extend_cons, extend_nil]
      obtain ⟨c, hc⟩ := exists_char
        (n := ((value * 64 + (x.toNat - 0x80)) * 64 + (y.toNat - 0x80)) * 64 + (z.toNat - 0x80)) (by omega)
      refine ⟨c, hc, ?_⟩
      rw [encodeChar_four (by omega) (by omega), ofNat_eq (b := b) (by omega), ofNat_eq (b := x) (by omega),
        ofNat_eq (b := y) (by omega), ofNat_eq (b := z) (by omega)]

theorem sequence_of_leads {m : Nat} {spans : List Span} {tail : List UInt8} (hm : m < 0x100)
    (hleads : Leads value m spans) (fits : List.Forall₂ Span.Holds spans tail) (hn : extend value tail = n) :
    Sequence (UInt8.ofNat m :: tail) n := by
  rw [← lead?_eq_some_iff, ← toNat_ofNat hm] at hleads
  exact hn ▸ .led hleads fits

theorem anyTail_holds (m : Nat) : anyTail.Holds (UInt8.ofNat (m % 64 + 0x80)) := by
  rw [Span.Holds, toNat_ofNat (by omega)]
  simp only [anyTail]
  omega

theorem toNat_sub_ofNat (m : Nat) : (UInt8.ofNat (m % 64 + 0x80)).toNat - 0x80 = m % 64 := by
  rw [toNat_ofNat (by omega), Nat.add_sub_cancel]

/-- The encoding of a code point is a sequence. -/
theorem sequence_encodeChar (c : Char) : Sequence (String.utf8EncodeChar c) c.toNat := by
  have hvalid : c.toNat < 0xD800 ∨ 0xDFFF < c.toNat ∧ c.toNat < 0x110000 := c.valid
  by_cases h₁ : c.toNat < 0x80
  · rw [encodeChar_one h₁]
    have hseq : Sequence [UInt8.ofNat c.toNat] (UInt8.ofNat c.toNat).toNat :=
      .single (by rw [toNat_ofNat (by omega)]; exact h₁)
    rwa [toNat_ofNat (by omega)] at hseq
  by_cases h₂ : c.toNat < 0x800
  · rw [encodeChar_two (by omega) h₂]
    refine sequence_of_leads (by omega) (.two (by omega) (by omega)) (.cons (anyTail_holds _) .nil) ?_
    rw [extend_cons, extend_nil, toNat_sub_ofNat]
    omega
  by_cases h₃ : c.toNat < 0x10000
  · rw [encodeChar_three (by omega) h₃]
    refine sequence_of_leads (by omega) (.three (by omega))
      (.cons (secondOfThree_holds_iff.2 ⟨anyTail_holds _, ?_⟩) (.cons (anyTail_holds _) .nil)) ?_
    · rw [toNat_ofNat (by omega)]
      omega
    · rw [extend_cons, extend_cons, extend_nil, toNat_sub_ofNat, toNat_sub_ofNat]
      omega
  · rw [encodeChar_four (by omega) (by omega)]
    refine sequence_of_leads (by omega) (.four (by omega))
      (.cons (secondOfFour_holds_iff.2 ⟨anyTail_holds _, ?_⟩) (.cons (anyTail_holds _) (.cons (anyTail_holds _) .nil))) ?_
    · rw [toNat_ofNat (by omega)]
      omega
    · rw [extend_cons, extend_cons, extend_cons, extend_nil, toNat_sub_ofNat, toNat_sub_ofNat, toNat_sub_ofNat]
      omega

theorem sequence_iff {seq : List UInt8} : Sequence seq n ↔ ∃ c : Char, c.toNat = n ∧ String.utf8EncodeChar c = seq := by
  constructor
  · exact exists_char_of_sequence
  · rintro ⟨c, rfl, rfl⟩
    exact sequence_encodeChar c

/-- From any place the decoder accepts exactly the encoding of a text. -/
theorem decodeFrom_none_eq_ok_iff {offset : Nat} {bytes : List UInt8} {cs : List Char} :
    decodeFrom offset none bytes = .ok cs ↔ encode cs = bytes := by
  induction cs generalizing offset bytes with
  | nil =>
    rw [decodeFrom_eq_ok_iff]
    simp [encode, eq_comm]
  | cons c cs ih =>
    rw [decodeFrom_eq_ok_iff, encode, List.flatMap_cons]
    constructor
    · rintro (⟨-, h⟩ | ⟨seq, n, rest, after, hseq, rfl, hcs, hafter⟩)
      · cases h
      · obtain ⟨d, rfl, rfl⟩ := sequence_iff.1 hseq
        rw [Char.ofNat_toNat] at hcs
        cases hcs
        rw [← ih.1 hafter, encode]
    · intro h
      exact .inr ⟨_, _, encode cs, cs, sequence_iff.2 ⟨c, rfl, rfl⟩, h.symm, by rw [Char.ofNat_toNat], ih.2 rfl⟩

/-- Bytes are decoded to a text exactly if they are its encoding. -/
theorem decode_eq_ok_iff {bytes : List UInt8} {cs : List Char} : decode bytes = .ok cs ↔ encode cs = bytes :=
  decodeFrom_none_eq_ok_iff

theorem decode_refused_iff {bytes : List UInt8} :
    (∃ refusal, decode bytes = .error refusal) ↔ ∀ cs, encode cs ≠ bytes := by
  constructor
  · rintro ⟨refusal, h⟩ cs hcs
    cases h.symm.trans (decode_eq_ok_iff.2 hcs)
  · intro h
    cases hdecode : decode bytes with
    | ok cs => exact absurd (decode_eq_ok_iff.1 hdecode) (h cs)
    | error refusal => exact ⟨refusal, rfl⟩

end Encoding

/-- The texts that cannot be encoded are those that are no strings. -/
theorem unencodable?_eq_none_iff {t : Text} : unencodable? t = none ↔ t.IsString := by
  have hnil : unencodable? t = none ↔ t.points.dropWhile (·.char?.isSome) = [] := by
    unfold unencodable?
    cases t.points.dropWhile (·.char?.isSome) <;> simp
  rw [hnil, List.dropWhile_eq_nil_iff, isString_iff]

end JniSignatures.Text.Utf8
