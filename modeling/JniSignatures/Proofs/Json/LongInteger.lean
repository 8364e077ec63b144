import Mathlib
import JniSignatures.Proofs.Json.RoundTrip
import JniSignatures.Proofs.Running
/-!
# Where an integer is too long

The reader refuses a token exactly if no document goes on with it: as long as it takes tokens, they are the
beginning of a document that is not nested too deep (`begins_iff`). So it refuses a text for an integer of too
many digits exactly if the tokens before that integer begin a document that has a shorter one there
(`ofText_eq_longInt_iff`). What such an integer is, is said of the characters (`LongLiteral`). A writer that has no
such limit writes documents that the reader refuses (`ofText_document_longInt`).
-/

namespace JniSignatures.Json

/-! ## Beginnings of documents -/

section Beginnings

variable {s s' : State} {stack : List Frame} {value document : Json} {depth size offset digits : Nat} {token : Token}
  {tokens rest : List (Nat × Token)}

/-- Takes tokens one after another. -/
def State.takeAll (depth : Nat) (s : State) (tokens : List (Nat × Token)) : Except Refusal State :=
  tokens.foldlM (fun s token => s.step depth token.1 token.2) s

/-- Tokens that begin a document: with the right ones behind them they are one in which at most `depth` containers
are open at a time. -/
def Begins (depth : Nat) (tokens : List (Nat × Token)) : Prop :=
  ∃ size rest document, State.run depth size ⟨[], .value⟩ (tokens ++ rest) = .ok document

theorem State.takeAll_cons :
    s.takeAll depth ((offset, token) :: rest) = s.step depth offset token >>= (·.takeAll depth rest) :=
  List.foldlM_cons

theorem State.takeAll_append : s.takeAll depth (tokens ++ rest) = s.takeAll depth tokens >>= (·.takeAll depth rest) :=
  List.foldlM_append

theorem State.takeAll_concat_eq_ok_iff : s.takeAll depth (tokens ++ [(offset, token)]) = .ok s' ↔
    ∃ next, s.takeAll depth tokens = .ok next ∧ next.step depth offset token = .ok s' := by
  rw [takeAll_append, bind_eq_ok_iff]
  simp only [takeAll_cons, bind_eq_ok_iff]
  constructor
  · rintro ⟨next, hnext, last, hlast, hnil⟩
    cases hnil
    exact ⟨next, hnext, hlast⟩
  · rintro ⟨next, hnext, hlast⟩
    exact ⟨next, hnext, s', hlast, rfl⟩

theorem State.run_eq_bind : State.run depth size s tokens = s.takeAll depth tokens >>= (·.close size) := by
  induction tokens generalizing s with
  | nil => rfl
  | cons head rest ih =>
    obtain ⟨offset, token⟩ := head
    rw [takeAll_cons, State.run]
    cases s.step depth offset token with
    | ok next => exact ih
    | error refusal => rfl

theorem State.run_append (h : s.takeAll depth tokens = .ok s') :
    State.run depth size s (tokens ++ rest) = State.run depth size s' rest := by
  rw [run_eq_bind, takeAll_append, h, run_eq_bind]
  rfl

/-- A value that has been read can be followed by the end of each container around it. -/
theorem exists_closing (depth : Nat) (stack : List Frame) (value : Json) :
    ∃ rest document, State.run depth 0 (State.deliver value stack) rest = .ok document := by
  -- From the innermost container outwards.
  induction stack generalizing value with
  | nil => exact ⟨[], value, rfl⟩
  | cons frame stack ih =>
    cases frame with
    | array items =>
      obtain ⟨rest, document, h⟩ := ih (.array (value :: items).reverse)
      exact ⟨(0, .closeBracket) :: rest, document, h⟩
    | object fields key =>
      obtain ⟨rest, document, h⟩ := ih (.object (Keyed.insert key value fields))
      exact ⟨(0, .closeBrace) :: rest, document, h⟩

/-- Whatever the reader expects, there is a document that it can read from there. -/
theorem exists_completion (depth : Nat) (s : State) : ∃ rest document, State.run depth 0 s rest = .ok document := by
  obtain ⟨stack, expected⟩ := s
  cases expected with
  | value =>
    obtain ⟨rest, document, h⟩ := exists_closing depth stack .null
    exact ⟨(0, .null) :: rest, document, h⟩
  | firstItem =>
    obtain ⟨rest, document, h⟩ := exists_closing depth stack (.array [])
    exact ⟨(0, .closeBracket) :: rest, document, h⟩
  | key fields =>
    obtain ⟨rest, document, h⟩ := exists_closing depth (.object fields "" :: stack) .null
    exact ⟨(0, .string "") :: (0, .colon) :: (0, .null) :: rest, document, h⟩
  | firstKey =>
    obtain ⟨rest, document, h⟩ := exists_closing depth stack (.object [])
    exact ⟨(0, .closeBrace) :: rest, document, h⟩
  | colon fields key =>
    obtain ⟨rest, document, h⟩ := exists_closing depth (.object fields key :: stack) .null
    exact ⟨(0, .colon) :: (0, .null) :: rest, document, h⟩
  | more items =>
    obtain ⟨rest, document, h⟩ := exists_closing depth stack (.array items.reverse)
    exact ⟨(0, .closeBracket) :: rest, document, h⟩
  | moreFields fields =>
    obtain ⟨rest, document, h⟩ := exists_closing depth stack (.object fields)
    exact ⟨(0, .closeBrace) :: rest, document, h⟩
  | finish document => exact ⟨[], document, rfl⟩

/-- The reader takes tokens exactly as long as they begin a document. -/
theorem begins_iff : Begins depth tokens ↔ ∃ s, State.takeAll depth ⟨[], .value⟩ tokens = .ok s := by
  constructor
  · rintro ⟨size, rest, document, h⟩
    rw [State.run_eq_bind, State.takeAll_append] at h
    obtain ⟨last, h, -⟩ := bind_eq_ok_iff.1 h
    obtain ⟨s, h, -⟩ := bind_eq_ok_iff.1 h
    exact ⟨s, h⟩
  · rintro ⟨s, h⟩
    obtain ⟨rest, document, hrest⟩ := exists_completion depth s
    exact ⟨0, rest, document, (State.run_append h).trans hrest⟩

end Beginnings

/-! ## Refusing for the length of an integer -/

section Refusing

variable {s : State} {depth size offset digits : Nat} {token : Token} {tokens : List (Nat × Token)}

theorem begin_eq_longInt_iff {stack : List Frame} :
    State.begin depth stack offset token = .error (.longInt digits) ↔ token = .longInt digits := by
  cases token <;> simp [State.begin, State.open, ite_eq_iff]

/-- A long integer is refused as such exactly where another one is taken. -/
theorem step_eq_longInt_iff : s.step depth offset token = .error (.longInt digits) ↔
    token = .longInt digits ∧ ∃ next, s.step depth offset (.int 0) = .ok next := by
  obtain ⟨stack, expected⟩ := s
  have taken (stack : List Frame) : ∃ next, State.begin depth stack offset (.int 0) = .ok next := ⟨_, rfl⟩
  cases expected with
  | value => exact begin_eq_longInt_iff.trans (and_iff_left (taken stack)).symm
  | firstItem =>
    have hbegin : State.step depth ⟨stack, .firstItem⟩ offset token = .error (.longInt digits) ↔
        State.begin depth (.array [] :: stack) offset token = .error (.longInt digits) := by
      cases token <;> simp [State.step, State.begin]
    exact hbegin.trans (begin_eq_longInt_iff.trans (and_iff_left (taken (.array [] :: stack))).symm)
  | _ =>
    -- Where no value may start, a long integer is refused like any other token.
    refine iff_of_false (fun h => ?_) (by rintro ⟨-, next, h⟩; cases h)
    cases token <;> simp [State.step, State.readKey] at h

theorem close_ne_longInt : s.close size ≠ .error (.longInt digits) := by
  unfold State.close
  split <;> intro h <;> cases h

theorem takeAll_eq_error_iff {refusal : Refusal} : s.takeAll depth tokens = .error refusal ↔
    ∃ before offset token after next, tokens = before ++ (offset, token) :: after ∧
      s.takeAll depth before = .ok next ∧
      next.step depth offset token = .error refusal := by
  induction tokens generalizing s with
  | nil =>
    constructor
    · intro h
      cases h
    · rintro ⟨before, offset, token, after, next, htokens, -⟩
      cases before <;> cases htokens
  | cons head tokens ih =>
    obtain ⟨offset, token⟩ := head
    rw [State.takeAll_cons, bind_eq_error_iff]
    constructor
    · rintro (h | ⟨next, hnext, h⟩)
      · exact ⟨[], offset, token, tokens, s, rfl, rfl, h⟩
      · obtain ⟨before, offset', token', after, last, rfl, hbefore, h⟩ := ih.1 h
        exact ⟨(offset, token) :: before, offset', token', after, last, rfl,
          State.takeAll_cons.trans (bind_eq_ok_iff.2 ⟨next, hnext, hbefore⟩), h⟩
    · rintro ⟨_ | ⟨head, before⟩, offset', token', after, last, htokens, hbefore, h⟩
      · cases htokens
        cases hbefore
        exact .inl h
      · cases htokens
        rw [State.takeAll_cons] at hbefore
        obtain ⟨next, hnext, hbefore⟩ := bind_eq_ok_iff.1 hbefore
        exact .inr ⟨next, hnext, ih.2 ⟨before, offset', token', after, last, rfl, hbefore, h⟩⟩

theorem run_eq_longInt_iff : State.run depth size ⟨[], .value⟩ tokens = .error (.longInt digits) ↔
    ∃ before offset after, tokens = before ++ (offset, .longInt digits) :: after ∧
      Begins depth (before ++ [(offset, .int 0)]) := by
  simp only [begins_iff, State.takeAll_concat_eq_ok_iff]
  rw [State.run_eq_bind, bind_eq_error_iff]
  constructor
  · rintro (h | ⟨last, -, h⟩)
    · obtain ⟨before, offset, token, after, next, rfl, hbefore, h⟩ := takeAll_eq_error_iff.1 h
      obtain ⟨rfl, last, hlast⟩ := step_eq_longInt_iff.1 h
      exact ⟨before, offset, after, rfl, last, next, hbefore, hlast⟩
    · exact (close_ne_longInt h).elim
  · rintro ⟨before, offset, after, rfl, last, next, hbefore, hlast⟩
    exact .inl (takeAll_eq_error_iff.2
      ⟨before, offset, _, after, next, rfl, hbefore, step_eq_longInt_iff.2 ⟨rfl, last, hlast⟩⟩)

end Refusing

/-! ## Integers of too many digits -/

section Literals

variable {offset digits : Nat} {token : Token} {text ds rest : List Char}

/-- A text starts with so many digits, too many, of an integer: no zero comes first, and neither a further digit nor
a fraction or an exponent comes behind them. -/
inductive LongNatural : List Char → Nat → Prop
  | mk {ds rest : List Char} (digits : ∀ d ∈ ds, isDigit d) (noZero : ds.head? ≠ some '0')
      (long : maxIntDigits < ds.length) (ended : digitsOf rest = []) (noFraction : fractionPart rest = [])
      (noExponent : exponentPart rest = none) : LongNatural (ds ++ rest) ds.length

/-- A text starts with an integer of so many digits, too many. -/
inductive LongLiteral : List Char → Nat → Prop
  | natural {text : List Char} {digits : Nat} (h : LongNatural text digits) : LongLiteral text digits
  | negative {text : List Char} {digits : Nat} (h : LongNatural text digits) : LongLiteral ('-' :: text) digits

theorem wholePart_eq_digitsOf (h : text.head? ≠ some '0') : wholePart text = digitsOf text := by
  unfold wholePart
  split
  · exact absurd rfl h
  · rfl

theorem digitsOf_append (hd : ∀ d ∈ ds, isDigit d) (hr : digitsOf rest = []) : digitsOf (ds ++ rest) = ds := by
  unfold digitsOf at hr ⊢
  rw [List.takeWhile_append_of_pos hd, hr, List.append_nil]

theorem exists_digitsOf_append (text : List Char) : ∃ rest, text = digitsOf text ++ rest ∧ digitsOf rest = [] := by
  have htext : digitsOf text ++ text.dropWhile isDigit = text := List.takeWhile_append_dropWhile
  refine ⟨text.dropWhile isDigit, htext.symm, ?_⟩
  have hall : ∀ d ∈ digitsOf text, isDigit d := fun d => List.mem_takeWhile_imp
  have hdigits : digitsOf (digitsOf text ++ text.dropWhile isDigit) =
      digitsOf text ++ digitsOf (text.dropWhile isDigit) :=
    List.takeWhile_append_of_pos hall
  rw [htext] at hdigits
  exact List.self_eq_append_right.1 hdigits

theorem longNatural_of_wholePart (hlong : maxIntDigits < (wholePart text).length)
    (hfraction : fractionPart (text.drop (wholePart text).length) = [])
    (hexponent : exponentPart (text.drop (wholePart text).length) = none) :
    LongNatural text (wholePart text).length := by
  have hzero : text.head? ≠ some '0' := by
    intro h
    obtain ⟨tail, rfl⟩ := List.head?_eq_some_iff.1 h
    have hone : maxIntDigits < ['0'].length := hlong
    exact absurd hone (by decide)
  rw [wholePart_eq_digitsOf hzero] at hlong hfraction hexponent ⊢
  obtain ⟨rest, htext, hended⟩ := exists_digitsOf_append text
  have hall : ∀ d ∈ digitsOf text, isDigit d := fun d => List.mem_takeWhile_imp
  generalize digitsOf text = ds at *
  subst htext
  rw [List.drop_left] at hfraction hexponent
  refine .mk hall (fun h => hzero ?_) hlong hended hfraction hexponent
  rw [List.head?_append, h, Option.some_or]

theorem readUnsigned_eq_longInt_iff {negative : Bool} {length : Nat} :
    readUnsigned negative text = some (.longInt digits, length) ↔ LongNatural text digits ∧ length = digits := by
  constructor
  · intro h
    unfold readUnsigned at h
    split at h
    · cases h
    · rename_i hne
      by_cases hfraction : fractionPart (text.drop (wholePart text).length) = []
      · cases hexponent : exponentPart (text.drop (wholePart text).length) with
        | some exponent => simp [hfraction, hexponent] at h
        | none =>
          simp only [hfraction, hexponent, if_true, List.drop_zero, Option.isNone_none, and_self, Option.map_none,
            Option.getD_none, Nat.add_zero] at h
          by_cases hlong : maxIntDigits < (wholePart text).length
          · simp only [hlong, if_true, Option.some.injEq, Prod.mk.injEq, Token.longInt.injEq] at h
            obtain ⟨rfl, rfl⟩ := h
            exact ⟨longNatural_of_wholePart hlong hfraction hexponent, rfl⟩
          · simp [hlong] at h
      · simp [hfraction] at h
  · rintro ⟨⟨hdigits, hzero, hlong, hended, hfraction, hexponent⟩, rfl⟩
    rename_i ds rest
    obtain ⟨d, tail, rfl⟩ : ∃ d tail, ds = d :: tail :=
      List.exists_cons_of_ne_nil (List.ne_nil_of_length_pos (Nat.zero_lt_of_lt hlong))
    have hhead : (d :: tail ++ rest).head? ≠ some '0' := hzero
    have hwhole : wholePart (d :: tail ++ rest) = d :: tail :=
      (wholePart_eq_digitsOf hhead).trans (digitsOf_append hdigits hended)
    unfold readUnsigned
    simp only [hwhole, List.drop_left, hfraction, hexponent, if_true, List.drop_zero, Option.isNone_none, and_self,
      hlong, Option.map_none, Option.getD_none, Nat.add_zero]

theorem exists_digitChar {c : Char} (h : isDigit c) : ∃ d < 10, c = d.digitChar := by
  have hchar : ∀ d < 10, Char.ofNat (48 + d) = d.digitChar := by decide
  simp only [isDigit, Bool.and_eq_true, decide_eq_true_eq, Char.le_def, UInt32.le_iff_toNat_le] at h
  have hlow : 48 ≤ c.toNat := h.1
  have hhigh : c.toNat ≤ 57 := h.2
  refine ⟨c.toNat - 48, by omega, ?_⟩
  rw [← hchar _ (by omega), Nat.add_sub_cancel' hlow, Char.ofNat_toNat]

theorem LongNatural.head (h : LongNatural text digits) : ∃ d tail, d < 10 ∧ text = d.digitChar :: tail := by
  obtain ⟨hdigits, -, hlong, -, -, -⟩ := h
  rename_i ds rest
  obtain ⟨c, tail, rfl⟩ : ∃ c tail, ds = c :: tail :=
    List.exists_cons_of_ne_nil (List.ne_nil_of_length_pos (Nat.zero_lt_of_lt hlong))
  obtain ⟨d, hd, rfl⟩ := exists_digitChar (hdigits c List.mem_cons_self)
  exact ⟨d, tail ++ rest, hd, rfl⟩

/-- A token is a long integer exactly if the text from its place on starts with one. -/
theorem readToken_eq_longInt_iff : (readToken offset text).1 = .longInt digits ↔ LongLiteral text digits := by
  constructor
  · intro h
    unfold readToken at h
    -- Only a minus and what starts no other token can be the start of an integer.
    split at h <;> try cases h
    · split at h <;> cases h
    · rename_i rest _
      cases hread : readUnsigned true rest with
      | none => simp [hread] at h
      | some result =>
        obtain ⟨token, length⟩ := result
        simp only [hread] at h
        exact .negative (readUnsigned_eq_longInt_iff.1 (h ▸ hread)).1
    · cases hread : readUnsigned false text with
      | none => simp [hread] at h
      | some result =>
        obtain ⟨token, length⟩ := result
        simp only [hread, Option.getD_some] at h
        exact .natural (readUnsigned_eq_longInt_iff.1 (h ▸ hread)).1
  · intro h
    cases h with
    | natural h =>
      have hread : readUnsigned false _ = _ := readUnsigned_eq_longInt_iff.2 ⟨h, rfl⟩
      obtain ⟨d, tail, hd, rfl⟩ := h.head
      rw [readToken_digit hd, hread]
      rfl
    | negative h =>
      have hread : readUnsigned true _ = _ := readUnsigned_eq_longInt_iff.2 ⟨h, rfl⟩
      obtain ⟨d, tail, hd, rfl⟩ := h.head
      rw [readToken_minus hd, hread]

/-- Each token is the one that is read at its place. -/
theorem token_of_mem {start skip : Nat} (h : (offset, token) ∈ tokensFrom start skip text) :
    ∃ k, offset = start + k ∧ token = (readToken offset (text.drop k)).1 := by
  induction text generalizing start skip with
  | nil => cases skip <;> cases h
  | cons c cs ih =>
    have later {skip : Nat} (h : (offset, token) ∈ tokensFrom (start + 1) skip cs) :
        ∃ k, offset = start + k ∧ token = (readToken offset ((c :: cs).drop k)).1 := by
      obtain ⟨k, rfl, htoken⟩ := ih h
      exact ⟨k + 1, by rw [Nat.add_assoc, Nat.add_comm 1], htoken⟩
    cases skip with
    | succ skip => exact later h
    | zero =>
      rw [tokensFrom] at h
      split at h
      · exact later h
      · rcases List.mem_cons.1 h with h | h
        · cases h
          exact ⟨0, rfl, rfl⟩
        · exact later h

theorem token_of_mem_tokens (h : (offset, token) ∈ tokens text) : token = (readToken offset (text.drop offset)).1 := by
  obtain ⟨k, hk, htoken⟩ := token_of_mem h
  rwa [show k = offset by omega] at htoken

end Literals

section BreakingOff

variable {text : List Char} {depth size digits : Nat}

/-- A text breaks off at an integer of so many digits: the tokens before that integer begin a document that goes on
with an integer, but this one has too many digits. -/
def BreaksOff (depth : Nat) (text : List Char) (digits : Nat) : Prop :=
  ∃ before offset token after, tokens text = before ++ (offset, token) :: after ∧
    LongLiteral (text.drop offset) digits ∧ Begins depth (before ++ [(offset, .int 0)])

theorem run_tokens_eq_longInt_iff :
    State.run depth size ⟨[], .value⟩ (tokens text) = .error (.longInt digits) ↔ BreaksOff depth text digits := by
  rw [run_eq_longInt_iff]
  constructor
  · rintro ⟨before, offset, after, htokens, hbegins⟩
    have hmem : (offset, Token.longInt digits) ∈ tokens text := by simp [htokens]
    exact ⟨before, offset, _, after, htokens, readToken_eq_longInt_iff.1 (token_of_mem_tokens hmem).symm, hbegins⟩
  · rintro ⟨before, offset, token, after, htokens, hlong, hbegins⟩
    have hmem : (offset, token) ∈ tokens text := by simp [htokens]
    obtain rfl := (token_of_mem_tokens hmem).trans (readToken_eq_longInt_iff.2 hlong)
    exact ⟨before, offset, after, htokens, hbegins⟩

/-- A text is refused for the length of an integer exactly if it breaks off there. -/
theorem ofText_eq_longInt_iff : ofText depth text = .error (.longInt digits) ↔ BreaksOff depth text digits := by
  rw [← @run_tokens_eq_longInt_iff text depth text.length]
  unfold ofText
  split
  · rename_i cs
    -- A byte order mark is no token, so nothing behind it is looked at.
    have htokens : tokens ('\ufeff' :: cs) = (0, .unknown) :: tokensFrom 1 0 cs := rfl
    rw [htokens]
    refine iff_of_false ?_ ?_ <;> intro h <;> cases h
  · rfl

theorem LongLiteral.head (h : LongLiteral text digits) : ∃ c cs, text = c :: cs ∧ isSpace c = false := by
  cases h with
  | natural h =>
    have hdigits : ∀ d < 10, isSpace d.digitChar = false := by decide
    obtain ⟨d, tail, hd, rfl⟩ := h.head
    exact ⟨_, tail, rfl, hdigits d hd⟩
  | negative h => exact ⟨'-', _, rfl, rfl⟩

/-- A text that starts with an integer of too many digits breaks off there. -/
theorem breaksOff_of_longLiteral (h : LongLiteral text digits) : BreaksOff depth text digits := by
  obtain ⟨c, cs, rfl, hc⟩ := h.head
  have hfirst : ∃ token after, tokens (c :: cs) = (0, token) :: after := by
    rw [tokens, tokensFrom, hc]
    exact ⟨_, _, rfl⟩
  obtain ⟨token, after, htokens⟩ := hfirst
  exact ⟨[], 0, token, after, htokens, h, 0, [], .int 0, rfl⟩

end BreakingOff

/-! ## Documents with a long integer -/

section Documents

variable {depth n : Nat} {key : String} {fields : List (Text × Json)} {rest : List Char}

theorem longNatural_toDigits (h : maxIntDigits < (Nat.toDigits 10 n).length) (hr : Ended rest) :
    LongNatural (Nat.toDigits 10 n ++ rest) (Nat.toDigits 10 n).length := by
  have hended : digitsOf rest = [] := by
    obtain ⟨c, tail, rfl, rfl | rfl⟩ := hr <;> rfl
  have hfraction : fractionPart rest = [] := by
    obtain ⟨c, tail, rfl, rfl | rfl⟩ := hr <;> rfl
  have hexponent : exponentPart rest = none := by
    obtain ⟨c, tail, rfl, rfl | rfl⟩ := hr <;> rfl
  refine .mk (fun d => isDigit_of_mem_toDigits) (fun hzero => ?_) h hended hfraction hexponent
  obtain ⟨d, tail, hd, htext, hn⟩ := toDigits_head n
  rw [htext, List.head?_cons, Option.some.injEq] at hzero
  have hall : ∀ d < 10, d.digitChar = '0' → d = 0 := by decide
  obtain rfl := hn (hall d hd hzero)
  exact absurd h (by decide)

/-- A written object whose first field is an integer of too many digits is refused. -/
theorem ofText_document_longInt (hd : 0 < depth) (h : maxIntDigits < (Nat.toDigits 10 n).length) :
    ofText depth (document (.object ((key, .int n) :: fields))) = .error (.longInt (Nat.toDigits 10 n).length) := by
  have hn : (toString (n : Int)).toList = Nat.toDigits 10 n := by
    rw [toString_int, if_neg (by omega), Int.natAbs_natCast]
  have hend : Ended (writeFields 1 fields ++ (lineBreak 0 ++ ['\x7d', '\n'])) :=
    ended_writeFields ⟨_, _, rfl, .inr rfl⟩ 1 fields
  have htext : document (.object ((key, .int n) :: fields)) =
      ['\x7b'] ++ (lineBreak 1 ++ (writeString key ++ ([':'] ++ [' ']))) ++
        (Nat.toDigits 10 n ++ (writeFields 1 fields ++ (lineBreak 0 ++ ['\x7d', '\n']))) := by
    rw [document, write, write, hn]
    simp
  have hfront : Takes depth ⟨[], .value⟩ (['\x7b'] ++ (lineBreak 1 ++ (writeString key ++ ([':'] ++ [' ']))))
      (Nat.toDigits 10 n ++ (writeFields 1 fields ++ (lineBreak 0 ++ ['\x7d', '\n'])))
      ⟨[.object [] key], .value⟩ := by
    have hcolon : ∀ rest, Takes depth ⟨[], .colon [] key⟩ [':'] rest ⟨[.object [] key], .value⟩ :=
      fun rest => takes_token (fun _ => rfl) rfl fun _ => rfl
    refine (Opens.takes_brace (opens_value []) hd).append ((takes_lineBreak 1).append ?_)
    have hkey := Text.isString_ofString key
    exact (takes_string hkey fun _ => rfl).append ((hcolon _).append (takes_blanks (by simp [isSpace])))
  generalize writeFields 1 fields ++ (lineBreak 0 ++ ['\x7d', '\n']) = rest at htext hfront hend
  -- The next token is the integer.
  have hliteral : LongLiteral (Nat.toDigits 10 n ++ rest) (Nat.toDigits 10 n).length :=
    .natural (longNatural_toDigits h hend)
  have hrun : ∀ size offset, State.run depth size ⟨[.object [] key], .value⟩
      (tokensFrom offset 0 (Nat.toDigits 10 n ++ rest)) = .error (.longInt (Nat.toDigits 10 n).length) := by
    intro size offset
    obtain ⟨c, cs, hcs, hc⟩ := hliteral.head
    have htoken := (@readToken_eq_longInt_iff offset _ _).2 hliteral
    rw [hcs] at htoken ⊢
    rw [tokensFrom, hc]
    simp only [Bool.false_eq_true, if_false, State.run, htoken]
    rfl
  rw [htext]
  exact (hfront _ 0).trans (hrun _ _)

end Documents

end JniSignatures.Json
