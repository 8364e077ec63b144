import Mathlib
import JniSignatures.Json.Reader
import JniSignatures.Proofs.Json.Tokens
/-!
# Documents read as they were written

A document that is written is read back to the same value, if it has no floating-point numbers, no texts
but strings and no object with two fields of one name, and is not nested too deep (`ofText_document`). The reader is
followed from state to state: `Takes` says that it takes a text and in which state it is then.
-/

namespace JniSignatures.Json

mutual

/-- A value without floating-point numbers, whose texts are strings and whose objects have each name once. -/
def Plain : Json → Prop
  | .float _ => False
  | .string text => text.IsString
  | .array items => ItemsPlain items
  | .object fields => (fields.map Prod.fst).Nodup ∧ FieldsPlain fields
  | _ => True

def ItemsPlain : List Json → Prop
  | [] => True
  | item :: items => Plain item ∧ ItemsPlain items

def FieldsPlain : List (Text × Json) → Prop
  | [] => True
  | (key, value) :: fields => key.IsString ∧ Plain value ∧ FieldsPlain fields

end

mutual

/-- How many containers are open at a time, at most, while a value is read. -/
def nesting : Json → Nat
  | .array items => itemsNesting items + 1
  | .object fields => fieldsNesting fields + 1
  | _ => 0

def itemsNesting : List Json → Nat
  | [] => 0
  | item :: items => max (nesting item) (itemsNesting items)

def fieldsNesting : List (Text × Json) → Nat
  | [] => 0
  | (_, value) :: fields => max (nesting value) (fieldsNesting fields)

end

/-- In front of `rest` the reader takes a text and goes from one state to the other. -/
def Takes (depth : Nat) (s : State) (text rest : List Char) (next : State) : Prop :=
  ∀ size offset, State.run depth size s (tokensFrom offset 0 (text ++ rest)) =
    State.run depth size next (tokensFrom (offset + text.length) 0 rest)

/-- A state in which a value may start, the containers around it being `stack`. -/
def Opens (depth : Nat) (s : State) (stack : List Frame) : Prop :=
  ∀ offset token, token ≠ .closeBracket → s.step depth offset token = State.begin depth stack offset token

/-! ## Steps of the reader -/

section Steps

variable {depth : Nat} {s s' s'' : State} {stack : List Frame} {text text' rest : List Char}

theorem Takes.append (h : Takes depth s text (text' ++ rest) s') (h' : Takes depth s' text' rest s'') :
    Takes depth s (text ++ text') rest s'' := by
  intro size offset
  rw [List.append_assoc, h, h', List.length_append, Nat.add_assoc]

theorem takes_token {token : Token} {c : Char}
    (h : ∀ offset, readToken offset (c :: text ++ rest) = (token, (c :: text).length))
    (hc : isSpace c = false) (hs : ∀ offset, s.step depth offset token = .ok s') :
    Takes depth s (c :: text) rest s' := by
  intro size offset
  rw [tokensFrom_token (h offset) hc, State.run, hs]

theorem takes_blanks (h : ∀ c ∈ text, isSpace c) : Takes depth s text rest s := by
  intro size offset
  rw [tokensFrom_blanks h]

theorem takes_lineBreak (level : Nat) : Takes depth s (lineBreak level) rest s :=
  takes_blanks (isSpace_lineBreak level)

theorem takes_string {key : Text} (hk : key.IsString) (hs : ∀ offset, s.step depth offset (.string key) = .ok s') :
    Takes depth s (writeString key) rest s' := by
  obtain ⟨key, rfl⟩ := hk
  exact takes_token (fun offset => readToken_writeString key rest offset) rfl hs

theorem takes_int {n : Int} (h : (Nat.toDigits 10 n.natAbs).length ≤ maxIntDigits) (hr : Ended rest)
    (hs : ∀ offset, s.step depth offset (.int n) = .ok s') : Takes depth s (toString n).toList rest s' := by
  have hfirst : ∃ c tail, (toString n).toList = c :: tail ∧ isSpace c = false := by
    obtain ⟨d, tail, hd, htext, -⟩ := toDigits_head n.natAbs
    have hall : ∀ d < 10, isSpace d.digitChar = false := by decide
    rw [toString_int, htext]
    split
    · exact ⟨'-', _, rfl, rfl⟩
    · exact ⟨_, tail, rfl, hall d hd⟩
  obtain ⟨c, tail, htext, hc⟩ := hfirst
  rw [htext]
  exact takes_token (fun offset => htext ▸ readToken_int h hr offset) hc hs

/-- Where there is room for one more container, its opening is taken. -/
theorem Opens.takes_bracket (ho : Opens depth s stack) (hroom : stack.length < depth) :
    Takes depth s ['['] rest ⟨stack, .firstItem⟩ :=
  takes_token (fun _ => rfl) rfl fun offset => (ho offset .openBracket nofun).trans (if_pos hroom)

theorem Opens.takes_brace (ho : Opens depth s stack) (hroom : stack.length < depth) :
    Takes depth s ['\x7b'] rest ⟨stack, .firstKey⟩ :=
  takes_token (fun _ => rfl) rfl fun offset => (ho offset .openBrace nofun).trans (if_pos hroom)

theorem opens_value (stack : List Frame) : Opens depth ⟨stack, .value⟩ stack :=
  fun _ _ _ => rfl

theorem opens_firstItem (stack : List Frame) : Opens depth ⟨stack, .firstItem⟩ (.array [] :: stack) := by
  intro offset token h
  cases token <;> first | rfl | exact absurd rfl h

theorem ended_lineBreak (level : Nat) (text rest : List Char) : Ended ((lineBreak level ++ text) ++ rest) :=
  ⟨_, _, rfl, .inr rfl⟩

theorem ended_writeItems (h : Ended rest) (level : Nat) (items : List Json) :
    Ended (writeItems level items ++ rest) := by
  cases items with
  | nil => exact h
  | cons item items => exact ⟨',', _, by rw [writeItems]; rfl, .inl rfl⟩

theorem ended_writeFields (h : Ended rest) (level : Nat) (fields : List (Text × Json)) :
    Ended (writeFields level fields ++ rest) := by
  cases fields with
  | nil => exact h
  | cons field fields => exact ⟨',', _, by rw [writeFields]; rfl, .inl rfl⟩

/-- A field whose value is taken is taken, and comes to the end of the object. -/
theorem takes_field {done : List (Text × Json)} {key : Text} {value : Json} {valueText : List Char}
    (hstring : key.IsString) (hs : ∀ offset, s.step depth offset (.string key) = .ok ⟨stack, .colon done key⟩)
    (hk : key ∉ done.map Prod.fst)
    (hv : Takes depth ⟨.object done key :: stack, .value⟩ valueText rest
      (State.deliver value (.object done key :: stack))) :
    Takes depth s (writeString key ++ ([':'] ++ ([' '] ++ valueText))) rest
      ⟨stack, .moreFields (done ++ [(key, value)])⟩ := by
  rw [State.deliver, Keyed.insert_of_notMem hk] at hv
  refine (takes_string hstring hs).append (Takes.append ?_ (Takes.append (takes_blanks ?_) hv))
  · exact takes_token (fun _ => rfl) rfl fun _ => rfl
  · simp [isSpace]

/-- An array is taken if its first item and the others are. -/
theorem takes_array {level : Nat} {item : Json} {items : List Json} (ho : Opens depth s stack)
    (hroom : stack.length < depth)
    (hitem : Takes depth ⟨stack, .firstItem⟩ (write (level + 1) item)
      (writeItems (level + 1) items ++ (lineBreak level ++ [']'] ++ rest)) ⟨stack, .more [item]⟩)
    (hitems : Takes depth ⟨stack, .more [item]⟩ (writeItems (level + 1) items) (lineBreak level ++ [']'] ++ rest)
      ⟨stack, .more (items.reverse ++ [item])⟩) :
    Takes depth s (write level (.array (item :: items))) rest (State.deliver (.array (item :: items)) stack) := by
  have htext : write level (.array (item :: items)) =
      ['['] ++ (lineBreak (level + 1) ++ (write (level + 1) item ++
        (writeItems (level + 1) items ++ (lineBreak level ++ [']'])))) := by
    simp [write]
  have hclose : Takes depth ⟨stack, .more (items.reverse ++ [item])⟩ [']'] rest
      (State.deliver (.array (item :: items)) stack) :=
    takes_token (fun _ => rfl) rfl fun offset => by simp [State.step]
  rw [← List.append_assoc] at hitem
  rw [htext]
  refine (ho.takes_bracket hroom).append ?_
  exact (takes_lineBreak _).append (hitem.append (hitems.append ((takes_lineBreak _).append hclose)))

/-- An object is taken if its first field and the others are. -/
theorem takes_object {level : Nat} {key : Text} {value : Json} {fields : List (Text × Json)}
    (hk : key.IsString) (ho : Opens depth s stack) (hroom : stack.length < depth)
    (hvalue : Takes depth ⟨.object [] key :: stack, .value⟩ (write (level + 1) value)
      (writeFields (level + 1) fields ++ (lineBreak level ++ ['\x7d'] ++ rest))
      (State.deliver value (.object [] key :: stack)))
    (hfields : Takes depth ⟨stack, .moreFields [(key, value)]⟩ (writeFields (level + 1) fields)
      (lineBreak level ++ ['\x7d'] ++ rest) ⟨stack, .moreFields ((key, value) :: fields)⟩) :
    Takes depth s (write level (.object ((key, value) :: fields))) rest
      (State.deliver (.object ((key, value) :: fields)) stack) := by
  have htext : write level (.object ((key, value) :: fields)) =
      ['\x7b'] ++ (lineBreak (level + 1) ++
        ((writeString key ++ ([':'] ++ ([' '] ++ write (level + 1) value))) ++
          (writeFields (level + 1) fields ++ (lineBreak level ++ ['\x7d'])))) := by
    simp [write]
  have hclose : Takes depth ⟨stack, .moreFields ((key, value) :: fields)⟩ ['\x7d'] rest
      (State.deliver (.object ((key, value) :: fields)) stack) :=
    takes_token (fun _ => rfl) rfl fun _ => rfl
  rw [← List.append_assoc] at hvalue
  have hfield := takes_field hk
    (fun _ => rfl : ∀ offset, State.step depth ⟨stack, .firstKey⟩ offset (.string key) = _)
    List.not_mem_nil hvalue
  rw [htext]
  refine (ho.takes_brace hroom).append ?_
  exact (takes_lineBreak _).append (hfield.append (hfields.append ((takes_lineBreak _).append hclose)))

end Steps

/-! ## Values -/

mutual

theorem takes_write (j : Json) (hp : j.Plain) (hw : j.isWritable) {depth : Nat} {s : State} {stack : List Frame}
    (ho : Opens depth s stack) (hd : stack.length + j.nesting ≤ depth) (level : Nat) {rest : List Char}
    (hr : Ended rest) : Takes depth s (write level j) rest (State.deliver j stack) := by
  match j with
  | .null => exact takes_token (fun _ => rfl) rfl fun offset => ho offset _ nofun
  | .bool true => exact takes_token (fun _ => rfl) rfl fun offset => ho offset _ nofun
  | .bool false => exact takes_token (fun _ => rfl) rfl fun offset => ho offset _ nofun
  | .int n => exact takes_int (by simpa [isWritable] using hw) hr fun offset => ho offset _ nofun
  | .float x => exact hp.elim
  | .string text => exact takes_string hp fun offset => ho offset _ nofun
  | .array [] =>
    rw [nesting] at hd
    have hopen : Takes depth s ['['] ([']'] ++ rest) ⟨stack, .firstItem⟩ := ho.takes_bracket (by omega)
    have hclose : Takes depth ⟨stack, .firstItem⟩ [']'] rest (State.deliver (.array []) stack) :=
      takes_token (fun _ => rfl) rfl fun _ => rfl
    rw [write]
    exact hopen.append hclose
  | .array (item :: items) =>
    obtain ⟨hi, his⟩ := hp
    rw [isWritable, itemsWritable, Bool.and_eq_true] at hw
    rw [nesting, itemsNesting] at hd
    -- An item ends where the next one or the end of the array is seen.
    have hend := ended_writeItems (ended_lineBreak level [']'] rest) (level + 1) items
    have hinner : (Frame.array [] :: stack).length + item.nesting ≤ depth := by
      rw [List.length_cons]
      omega
    have hrest : stack.length + itemsNesting items + 1 ≤ depth := by omega
    have hitem := takes_write item hi hw.1 (opens_firstItem stack) hinner (level + 1) hend
    have hitems := takes_writeItems items his hw.2 [item] stack hrest (level + 1)
      (ended_lineBreak level [']'] rest)
    exact takes_array ho (by omega) hitem hitems
  | .object [] =>
    rw [nesting] at hd
    have hopen : Takes depth s ['\x7b'] (['\x7d'] ++ rest) ⟨stack, .firstKey⟩ := ho.takes_brace (by omega)
    have hclose : Takes depth ⟨stack, .firstKey⟩ ['\x7d'] rest (State.deliver (.object []) stack) :=
      takes_token (fun _ => rfl) rfl fun _ => rfl
    rw [write]
    exact hopen.append hclose
  | .object ((key, value) :: fields) =>
    obtain ⟨hn, hk, hv, hfs⟩ := hp
    rw [isWritable, fieldsWritable, Bool.and_eq_true] at hw
    rw [nesting, fieldsNesting] at hd
    have hend := ended_writeFields (ended_lineBreak level ['\x7d'] rest) (level + 1) fields
    have hinner : (Frame.object [] key :: stack).length + value.nesting ≤ depth := by
      rw [List.length_cons]
      omega
    have hrest : stack.length + fieldsNesting fields + 1 ≤ depth := by omega
    have hvalue := takes_write value hv hw.1 (opens_value (.object [] key :: stack)) hinner (level + 1) hend
    have hfields := takes_writeFields fields hfs hw.2 [(key, value)] stack hn hrest (level + 1)
      (ended_lineBreak level ['\x7d'] rest)
    exact takes_object hk ho (by omega) hvalue hfields

/-- Further items are added to those that there are. -/
theorem takes_writeItems (items : List Json) (hp : ItemsPlain items) (hw : itemsWritable items)
    (done : List Json) {depth : Nat} (stack : List Frame) (hd : stack.length + itemsNesting items + 1 ≤ depth)
    (level : Nat) {rest : List Char} (hr : Ended rest) :
    Takes depth ⟨stack, .more done⟩ (writeItems level items) rest ⟨stack, .more (items.reverse ++ done)⟩ := by
  match items with
  | [] => exact takes_blanks fun _ h => absurd h List.not_mem_nil
  | item :: items =>
    obtain ⟨hi, his⟩ := hp
    rw [itemsWritable, Bool.and_eq_true] at hw
    rw [itemsNesting] at hd
    have htext : writeItems level (item :: items) =
        [','] ++ (lineBreak level ++ (write level item ++ writeItems level items)) := by
      simp [writeItems]
    rw [htext, List.reverse_cons, List.append_assoc]
    refine Takes.append (takes_token (fun _ => rfl) rfl fun _ => rfl) ?_
    have hinner : (Frame.array done :: stack).length + item.nesting ≤ depth := by
      rw [List.length_cons]
      omega
    have hrest : stack.length + itemsNesting items + 1 ≤ depth := by omega
    have hitem := takes_write item hi hw.1 (opens_value (.array done :: stack)) hinner level
      (ended_writeItems hr level items)
    exact (takes_lineBreak _).append (hitem.append (takes_writeItems items his hw.2 _ stack hrest level hr))

/-- Further fields are added to those that there are. -/
theorem takes_writeFields (fields : List (Text × Json)) (hp : FieldsPlain fields)
    (hw : fieldsWritable fields) (done : List (Text × Json)) {depth : Nat} (stack : List Frame)
    (hn : ((done ++ fields).map Prod.fst).Nodup) (hd : stack.length + fieldsNesting fields + 1 ≤ depth)
    (level : Nat) {rest : List Char} (hr : Ended rest) :
    Takes depth ⟨stack, .moreFields done⟩ (writeFields level fields) rest
      ⟨stack, .moreFields (done ++ fields)⟩ := by
  match fields with
  | [] =>
    rw [List.append_nil]
    exact takes_blanks fun _ h => absurd h List.not_mem_nil
  | (key, value) :: fields =>
    obtain ⟨hstring, hv, hfs⟩ := hp
    rw [fieldsWritable, Bool.and_eq_true] at hw
    rw [fieldsNesting] at hd
    have htext : writeFields level ((key, value) :: fields) =
        [','] ++ (lineBreak level ++
          ((writeString key ++ ([':'] ++ ([' '] ++ write level value))) ++ writeFields level fields)) := by
      simp [writeFields]
    have hdone : done ++ (key, value) :: fields = (done ++ [(key, value)]) ++ fields := by simp
    rw [hdone] at hn ⊢
    have hk : key ∉ done.map Prod.fst := by
      rw [List.map_append, List.map_append, List.nodup_append, List.nodup_append] at hn
      exact fun h => hn.1.2.2 key h key (by simp) rfl
    rw [htext]
    refine Takes.append (takes_token (fun _ => rfl) rfl fun _ => rfl) ?_
    have hinner : (Frame.object done key :: stack).length + value.nesting ≤ depth := by
      rw [List.length_cons]
      omega
    have hrest : stack.length + fieldsNesting fields + 1 ≤ depth := by omega
    have hvalue := takes_write value hv hw.1 (opens_value (.object done key :: stack)) hinner level
      (ended_writeFields hr level fields)
    have hfield := takes_field hstring
      (fun _ => rfl : ∀ offset, State.step depth ⟨stack, .key done⟩ offset (.string key) = _)
      hk hvalue
    exact (takes_lineBreak _).append (hfield.append (takes_writeFields fields hfs hw.2 _ stack hn hrest level hr))

end

end JniSignatures.Json
