import Mathlib
import JniSignatures.Audit.Check
import JniSignatures.Proofs.Json.Document
/-!
# The documents of a report are consistent

Both documents are read back as they were written (`read_document`, `read_factsIndex`), for they hold
neither a floating-point number nor a name twice and are nested less deep than any reader supports; of the
texts in a report those of the outcomes must be strings, as they are in rows that fit their columns. The
documents can be written unless an integer in them is too long; with such rows and lists of names of a
feasible length no integer is (`isWritable_document`). The counts of a report are those that a check counts
again in its lists (`checkSummary_document`).
-/

namespace JniSignatures

namespace Json

theorem itemsPlain_of_forall {items : List Json} (h : ∀ item ∈ items, item.Plain) : ItemsPlain items := by
  induction items with
  | nil => exact trivial
  | cons item items ih =>
    exact ⟨h item List.mem_cons_self, ih fun other hm => h other (List.mem_cons_of_mem _ hm)⟩

theorem itemsNesting_le_of_forall {items : List Json} {n : Nat} (h : ∀ item ∈ items, item.nesting ≤ n) :
    itemsNesting items ≤ n := by
  induction items with
  | nil => exact Nat.zero_le n
  | cons item items ih =>
    exact Nat.max_le.2 ⟨h item List.mem_cons_self, ih fun other hm => h other (List.mem_cons_of_mem _ hm)⟩

theorem fieldsNesting_le_of_forall {fields : List (Text × Json)} {n : Nat}
    (h : ∀ field ∈ fields, field.2.nesting ≤ n) : fieldsNesting fields ≤ n := by
  induction fields with
  | nil => exact Nat.zero_le n
  | cons field fields ih =>
    exact Nat.max_le.2 ⟨h field List.mem_cons_self, ih fun other hm => h other (List.mem_cons_of_mem _ hm)⟩

theorem nesting_array_le {items : List Json} {n : Nat} (h : ∀ item ∈ items, item.nesting ≤ n) :
    (array items).nesting ≤ n + 1 :=
  Nat.succ_le_succ (itemsNesting_le_of_forall h)

theorem nesting_object_le {fields : List (Text × Json)} {n : Nat} (h : ∀ field ∈ fields, field.2.nesting ≤ n) :
    (object fields).nesting ≤ n + 1 :=
  Nat.succ_le_succ (fieldsNesting_le_of_forall h)

theorem nesting_ofText? (text? : Option Text) : (ofText? text?).nesting = 0 := by
  cases text? <;> rfl

theorem nesting_ofInt? (n? : Option Int) : (ofInt? n?).nesting = 0 := by
  cases n? <;> rfl

theorem nesting_ofStrings_le (strings : List String) : (ofStrings strings).nesting ≤ 1 := by
  refine nesting_array_le fun item hm => ?_
  obtain ⟨s, -, rfl⟩ := List.mem_map.1 hm
  exact Nat.le_refl 0

theorem isWritable_array {items : List Json} (h : ∀ item ∈ items, item.isWritable) : (array items).isWritable := by
  rw [isWritable]
  induction items with
  | nil => rfl
  | cons item items ih =>
    obtain ⟨hitem, hitems⟩ := List.forall_mem_cons.1 h
    rw [itemsWritable, hitem, ih hitems]
    rfl

theorem isWritable_object {fields : List (Text × Json)} (h : ∀ field ∈ fields, field.2.isWritable) :
    (object fields).isWritable := by
  rw [isWritable]
  induction fields with
  | nil => rfl
  | cons field fields ih =>
    obtain ⟨hfield, hfields⟩ := List.forall_mem_cons.1 h
    rw [fieldsWritable, hfield, ih hfields]
    rfl

theorem isWritable_int_iff {n : Int} : (int n).isWritable ↔ n.natAbs < 10 ^ maxIntDigits := by
  rw [isWritable, decide_eq_true_eq]
  exact Nat.length_toDigits_le_iff (by decide) (by decide)

/-- What fits a column is not too long to be written. -/
theorem maxInt_lt : Table.maxInt.natAbs + 1 < 10 ^ maxIntDigits :=
  (show Table.maxInt.natAbs + 1 < 10 ^ 19 by decide).trans_le (Nat.pow_le_pow_right (by decide) (by decide))

theorem isWritable_ofText? (text? : Option Text) : (ofText? text?).isWritable := by
  cases text? <;> rfl

theorem isWritable_ofInt? {n? : Option Int} (h : n?.all Table.fitsColumn) : (ofInt? n?).isWritable := by
  cases n? with
  | none => rfl
  | some n =>
    have hlimit := maxInt_lt
    simp only [Option.all_some, Table.fitsColumn, Bool.and_eq_true, decide_eq_true_eq] at h
    exact isWritable_int_iff.2 (by omega)

theorem isWritable_ofStrings (strings : List String) : (ofStrings strings).isWritable := by
  refine isWritable_array fun item hm => ?_
  obtain ⟨s, -, rfl⟩ := List.mem_map.1 hm
  rfl

/-- An object of plain values under names that are strings, each once. -/
theorem plain_object {names : List String} {fields : List (Text × Json)} (hn : names.Nodup)
    (hnames : fields.map Prod.fst = names.map Text.ofString) (hvalues : ItemsPlain (fields.map Prod.snd)) :
    (object fields).Plain := by
  refine ⟨hnames ▸ hn.map Text.ofString_injective, ?_⟩
  clear hn
  induction fields generalizing names with
  | nil => exact trivial
  | cons field fields ih =>
    cases names with
    | nil => cases hnames
    | cons name names =>
      obtain ⟨hname, hnames⟩ := List.cons.inj hnames
      exact ⟨⟨name, hname⟩, hvalues.1, ih hnames hvalues.2⟩

theorem plain_string (s : String) : (string s).Plain :=
  Text.isString_ofString s

theorem plain_ofText? {text? : Option Text} (h : text?.all Table.fitsText) : (ofText? text?).Plain := by
  cases text? with
  | none => exact trivial
  | some text => exact Text.isSome_string?_iff.1 h

theorem plain_ofString? (s? : Option String) : (ofText? (s?.map Text.ofString)).Plain := by
  cases s? with
  | none => exact trivial
  | some s => exact plain_string s

theorem plain_ofInt? (n? : Option Int) : (ofInt? n?).Plain := by
  cases n? <;> exact trivial

theorem plain_ofStrings (strings : List String) : (ofStrings strings).Plain := by
  refine itemsPlain_of_forall fun item hm => ?_
  obtain ⟨s, -, rfl⟩ := List.mem_map.1 hm
  exact plain_string s

end Json

open Json (plain_object plain_string plain_ofText? plain_ofString? plain_ofInt? plain_ofStrings
  itemsPlain_of_forall nesting_ofText? nesting_ofInt?
  nesting_ofStrings_le nesting_array_le nesting_object_le isWritable_array isWritable_object isWritable_int_iff
  maxInt_lt isWritable_ofText? isWritable_ofInt? isWritable_ofStrings)

/-- The columns that the cells of a row fit, one by one. -/
theorem Table.fits_iff {row : FactRow} : Table.fits row ↔
    row.methodIndex.all fitsColumn ∧ row.qualifiedName.all fitsText ∧ row.candidateName.all fitsText ∧
      row.status.all fitsText ∧ row.parameterCount.all fitsColumn ∧ row.detail.all fitsText := by
  simp only [fits, Bool.and_eq_true, and_assoc]

theorem FactRow.plain_toJson {row : FactRow} (h : Table.fits row) : row.toJson.Plain := by
  obtain ⟨-, hname, hcandidate, hstatus, -, hdetail⟩ := Table.fits_iff.1 h
  exact plain_object (by decide : FactRow.columns.Nodup) rfl ⟨plain_ofText? hcandidate, plain_ofText? hdetail,
    plain_ofInt? _, plain_ofInt? _, plain_ofText? hname, plain_ofText? hstatus, trivial⟩

theorem FactRow.plain_rows {rows : List FactRow} (h : ∀ row ∈ rows, Table.fits row) :
    (Json.array (rows.map FactRow.toJson)).Plain := by
  refine itemsPlain_of_forall fun item hm => ?_
  obtain ⟨row, hrow, rfl⟩ := List.mem_map.1 hm
  exact plain_toJson (h row hrow)

theorem FactRow.nesting_rows_le (rows : List FactRow) : (Json.array (rows.map FactRow.toJson)).nesting ≤ 2 := by
  refine nesting_array_le fun item hm => ?_
  obtain ⟨row, -, rfl⟩ := List.mem_map.1 hm
  refine nesting_object_le fun field hfield => ?_
  simp only [FactRow.cells, List.mem_cons, List.not_mem_nil, or_false] at hfield
  rcases hfield with rfl | rfl | rfl | rfl | rfl | rfl <;> simp [nesting_ofText?, nesting_ofInt?]

/-! ## Agreement with itself -/

theorem Json.agrees_ofText? (text? : Option Text) : (ofText? text?).agrees (ofText? text?) := by
  cases text? with
  | none => rfl
  | some text => simp [ofText?, agrees]

theorem Json.agrees_ofInt? (n? : Option Int) : (ofInt? n?).agrees (ofInt? n?) := by
  cases n? with
  | none => rfl
  | some n => simp [ofInt?, agrees, quantity?, Quantity.agrees]

/-- A row agrees with itself, whatever its texts are, since its columns have different names. -/
theorem FactRow.agrees_self (row : FactRow) : row.toJson.agrees row.toJson := by
  simp [toJson, Json.agrees, cells, Json.fieldsAgree, List.lookup, Json.agrees_ofText?, Json.agrees_ofInt?]

theorem FactRow.agrees_rows (rows : List FactRow) :
    (Json.array (rows.map toJson)).agrees (.array (rows.map toJson)) := by
  rw [Json.agrees]
  induction rows with
  | nil => rfl
  | cons row rows ih => rw [List.map_cons, Json.itemsAgree, agrees_self, ih, Bool.and_true]

namespace Report

/-! ## Reading back -/

theorem plain_schemaTag (name : String) : (schemaTag name).Plain :=
  plain_object (by decide : ["name", "version"].Nodup) rfl ⟨plain_string _, plain_string _, trivial⟩

theorem plain_summary (s : Summary) : s.toJson.Plain :=
  plain_object (by decide : ["applied_count", "ignored_count", "indexed_count", "method_count", "no_match_count",
      "onload_modified_count", "type_error_count", "unsupported_count"].Nodup) rfl
    ⟨trivial, trivial, trivial, trivial, trivial, trivial, trivial, trivial, trivial⟩

theorem plain_document {r : Report} (hrows : ∀ row ∈ r.factRows, Table.fits row)
    (programName methodsPath : Option String) : (r.document programName methodsPath).Plain :=
  plain_object (by decide : ["facts_ref", "ignored", "indexed", "methods_path", "onload_modified", "outcomes",
      "program_name", "schema", "summary", "tool_version"].Nodup) rfl
    ⟨plain_string _, plain_ofStrings _, plain_ofStrings _, plain_ofString? _, plain_ofStrings _,
      FactRow.plain_rows hrows, plain_ofString? _, plain_schemaTag _, plain_summary _, plain_string _, trivial⟩

theorem plain_columns : (Json.array (columns.map fun (name, type) =>
    .object [("name", .string name), ("type", .string type)])).Plain := by
  refine itemsPlain_of_forall fun item hm => ?_
  obtain ⟨column, -, rfl⟩ := List.mem_map.1 hm
  exact plain_object (by decide : ["name", "type"].Nodup) rfl ⟨plain_string _, plain_string _, trivial⟩

theorem plain_factsIndex (rowCount : Nat) : (factsIndex rowCount).Plain := by
  have htable : (["description", "name", "paths", "primary_key", "row_count", "schema"] : List String).Nodup := by
    decide
  refine plain_object (by decide : ["schema", "tables"].Nodup) rfl ⟨plain_schemaTag _, ⟨?_, trivial⟩, trivial⟩
  exact plain_object htable rfl ⟨plain_string _, plain_string _, plain_ofStrings _, plain_ofStrings _, trivial,
    plain_columns, trivial⟩

theorem nesting_document_le (r : Report) (programName methodsPath : Option String) :
    (r.document programName methodsPath).nesting ≤ 3 := by
  refine nesting_object_le fun field hfield => ?_
  simp only [List.mem_cons, List.not_mem_nil, or_false] at hfield
  rcases hfield with rfl | rfl | rfl | rfl | rfl | rfl | rfl | rfl | rfl | rfl
  · exact Nat.zero_le 2
  · exact (nesting_ofStrings_le r.ignored).trans (by decide)
  · exact (nesting_ofStrings_le r.indexed).trans (by decide)
  · simp [nesting_ofText?]
  · exact (nesting_ofStrings_le r.onLoadModified).trans (by decide)
  · exact FactRow.nesting_rows_le r.factRows
  · simp [nesting_ofText?]
  · exact (show 1 ≤ 2 by decide)
  · exact (show 1 ≤ 2 by decide)
  · exact Nat.zero_le 2

/-- A report's document is read back as it was written. -/
theorem read_document {r : Report} {programName methodsPath : Option String} {depth : Nat}
    (hd : Document.supportedDepth ≤ depth) (hrows : ∀ row ∈ r.factRows, Table.fits row)
    (hw : (r.document programName methodsPath).isWritable) :
    Document.read depth (Files.Content.ofText (Json.document (r.document programName methodsPath))).toBytes =
      .ok (r.document programName methodsPath) :=
  Document.read_document (plain_document hrows programName methodsPath) hw
    ((nesting_document_le r programName methodsPath).trans (le_trans (by decide) hd))

theorem read_factsIndex {rowCount depth : Nat} (hd : Document.supportedDepth ≤ depth)
    (hw : (factsIndex rowCount).isWritable) :
    Document.read depth (Files.Content.ofText (Json.document (factsIndex rowCount))).toBytes =
      .ok (factsIndex rowCount) :=
  Document.read_document (plain_factsIndex rowCount) hw (le_trans (show 5 ≤ Document.supportedDepth by decide) hd)

/-! ## Writing -/

section Writing

variable {r : Report}

theorem exists_last_factRow (position : Nat) (o : Outcome) (outcomes : List Outcome) :
    ∃ last, factRow (position + outcomes.length) last ∈ factRowsFrom position (o :: outcomes) := by
  induction outcomes generalizing position o with
  | nil => exact ⟨o, List.mem_cons_self⟩
  | cons other outcomes ih =>
    obtain ⟨last, hlast⟩ := ih (position + 1) other
    rw [Nat.add_right_comm, Nat.add_assoc] at hlast
    exact ⟨last, List.mem_cons_of_mem _ hlast⟩

/-- There are no more outcomes than the indices in the rows of a table can tell. -/
theorem length_outcomes_le (h : ∀ row ∈ r.factRows, Table.fits row) : (r.outcomes.length : Int) ≤ Table.maxInt + 1 := by
  unfold factRows at h
  cases hr : r.outcomes with
  | nil => decide
  | cons o outcomes =>
    rw [hr] at h
    obtain ⟨last, hlast⟩ := exists_last_factRow 0 o outcomes
    have hindex : Table.fitsColumn (0 + outcomes.length : Nat) := (Table.fits_iff.1 (h _ hlast)).1
    simp only [Table.fitsColumn, Bool.and_eq_true, decide_eq_true_eq, Nat.zero_add] at hindex
    rw [List.length_cons, Nat.cast_succ]
    exact Int.add_le_add_right hindex.2 1

theorem isWritable_toJson {row : FactRow} (h : Table.fits row) : row.toJson.isWritable := by
  obtain ⟨hindex, -, -, -, hcount, -⟩ := Table.fits_iff.1 h
  refine isWritable_object fun field hfield => ?_
  simp only [FactRow.cells, List.mem_cons, List.not_mem_nil, or_false] at hfield
  rcases hfield with rfl | rfl | rfl | rfl | rfl | rfl
  · exact isWritable_ofText? _
  · exact isWritable_ofText? _
  · exact isWritable_ofInt? hindex
  · exact isWritable_ofInt? hcount
  · exact isWritable_ofText? _
  · exact isWritable_ofText? _

/-- None of the lists of names is longer than `n`. -/
structure NamesWithin (r : Report) (n : Nat) : Prop where
  indexed : r.indexed.length ≤ n
  ignored : r.ignored.length ≤ n
  onLoadModified : r.onLoadModified.length ≤ n

theorem isWritable_summary (hrows : ∀ row ∈ r.factRows, Table.fits row) {n : Nat} (hnames : r.NamesWithin n)
    (hn : n < 10 ^ Json.maxIntDigits) : r.summary.toJson.isWritable := by
  have hlist : ∀ {k : Nat}, k ≤ n → (Json.int k).isWritable :=
    fun hk => isWritable_int_iff.2 (by simpa using hk.trans_lt hn)
  have hmethods : ∀ {k : Nat}, k ≤ r.outcomes.length → (Json.int k).isWritable := by
    intro k hk
    have hlength := length_outcomes_le hrows
    have hlimit := maxInt_lt
    exact isWritable_int_iff.2 (by omega)
  have hstatus : ∀ status, (Json.int (r.count status)).isWritable := fun status => hmethods List.countP_le_length
  refine isWritable_object fun field hfield => ?_
  simp only [summary, List.mem_cons, List.not_mem_nil, or_false] at hfield
  rcases hfield with rfl | rfl | rfl | rfl | rfl | rfl | rfl | rfl
  · exact hstatus .applied
  · exact hlist hnames.ignored
  · exact hlist hnames.indexed
  · exact hmethods (Nat.le_refl _)
  · exact hstatus .noMatch
  · exact hlist hnames.onLoadModified
  · exact hstatus .typeError
  · exact hstatus .unsupported

/-- A report whose rows fit their columns can be written, unless it has more names than a number can tell. -/
theorem isWritable_document (hrows : ∀ row ∈ r.factRows, Table.fits row) {n : Nat} (hnames : r.NamesWithin n)
    (hn : n < 10 ^ Json.maxIntDigits) (programName methodsPath : Option String) :
    (r.document programName methodsPath).isWritable := by
  refine isWritable_object fun field hfield => ?_
  simp only [List.mem_cons, List.not_mem_nil, or_false] at hfield
  rcases hfield with rfl | rfl | rfl | rfl | rfl | rfl | rfl | rfl | rfl | rfl
  · rfl
  · exact isWritable_ofStrings _
  · exact isWritable_ofStrings _
  · exact isWritable_ofText? _
  · exact isWritable_ofStrings _
  · refine isWritable_array fun item hm => ?_
    obtain ⟨row, hrow, rfl⟩ := List.mem_map.1 hm
    exact isWritable_toJson (hrows row hrow)
  · exact isWritable_ofText? _
  · rfl
  · exact isWritable_summary hrows hnames hn
  · rfl

end Writing

/-! ## Counting again -/

section Counts

open Audit

theorem length_factRowsFrom (position : Nat) (outcomes : List Outcome) :
    (factRowsFrom position outcomes).length = outcomes.length := by
  induction outcomes generalizing position with
  | nil => rfl
  | cons o outcomes ih => rw [factRowsFrom, List.length_cons, List.length_cons, ih]

/-- The statuses that a check finds in the rows are those of the outcomes. -/
theorem statuses_factRowsFrom (position : Nat) (outcomes : List Outcome) :
    ((factRowsFrom position outcomes).map FactRow.toJson).filterMap status? =
      outcomes.map fun o => Json.string o.status.word := by
  induction outcomes generalizing position with
  | nil => rfl
  | cons o outcomes ih =>
    have hstatus : status? (factRow position o).toJson = some (.string o.status.word) := rfl
    rw [factRowsFrom, List.map_cons, List.map_cons, List.filterMap_cons_some hstatus, ih]

theorem isCount_int (n : Nat) : isCount (some (.int n)) n := by
  simp [isCount, Json.agrees, Json.quantity?, Json.Quantity.agrees]

theorem countLine_int (key : String) (n : Nat) (things : String) : countLine key (some (.int n)) n things = [] :=
  if_pos (isCount_int n)

theorem countStatus_words (outcomes : List Outcome) (status : Status) :
    countStatus (outcomes.map fun o => Json.string o.status.word) status =
      outcomes.countP (·.status = status) := by
  rw [countStatus, List.countP_map]
  refine List.countP_congr fun o _ => ?_
  obtain ⟨word⟩ := status
  cases ho : o.status
  simp [ho]

theorem statusLines_summary (r : Report) :
    statusLines r.summary.toJson (r.outcomes.map fun o => .string o.status.word) = [] := by
  have hline : ∀ status, ∀ key : String, r.summary.toJson.get? key = some (.int (r.count status)) →
      countLine key (r.summary.toJson.get? key) (countStatus (r.outcomes.map fun o => .string o.status.word) status)
        (status.word ++ " outcomes") = [] := by
    intro status key hkey
    rw [hkey, countStatus_words]
    exact countLine_int key (r.count status) _
  simp only [statusLines, countedStatuses, List.flatMap_cons, List.flatMap_nil, List.append_nil]
  rw [hline .applied _ rfl, hline .noMatch _ rfl, hline .unsupported _ rfl, hline .typeError _ rfl]
  rfl

theorem listLines_document (r : Report) (programName methodsPath : Option String) :
    listLines (r.document programName methodsPath) r.summary.toJson = [] := by
  have hline : ∀ strings : List String, ∀ (key things : String),
      r.summary.toJson.get? key = some (.int strings.length) →
      countLine key (r.summary.toJson.get? key) (strings.map fun s : String => Json.string s).length things = [] := by
    intro strings key things hkey
    rw [hkey, List.length_map]
    exact countLine_int key strings.length things
  have hindexed : (r.document programName methodsPath).get? "indexed" = some (.ofStrings r.indexed) := rfl
  have hignored : (r.document programName methodsPath).get? "ignored" = some (.ofStrings r.ignored) := rfl
  simp only [listLines, countedLists, List.flatMap_cons, List.flatMap_nil, List.append_nil, hindexed, hignored,
    Json.ofStrings]
  rw [hline r.indexed _ _ rfl, hline r.ignored _ _ rfl]
  rfl

theorem checkSummary_eq (r : Report) (programName methodsPath : Option String) :
    checkSummary (r.document programName methodsPath) =
      match ((r.factRows.map FactRow.toJson).filterMap status?).find? (fun value => !isCountable value) with
      | some value => .error (.notCountable value.kind)
      | none => .ok (countLine "method_count" (some (.int r.outcomes.length)) (r.factRows.map FactRow.toJson).length
          "outcomes" ++ statusLines r.summary.toJson ((r.factRows.map FactRow.toJson).filterMap status?) ++
          listLines (r.document programName methodsPath) r.summary.toJson) :=
  rfl

/-- The counts of a report agree with its lists. -/
theorem checkSummary_document (r : Report) (programName methodsPath : Option String) :
    checkSummary (r.document programName methodsPath) = .ok [] := by
  have hlength : (r.factRows.map FactRow.toJson).length = r.outcomes.length := by
    rw [List.length_map, factRows, length_factRowsFrom]
  have hcountable : (r.outcomes.map fun o => Json.string o.status.word).find? (fun value => !isCountable value) =
      none := by
    rw [List.find?_eq_none]
    rintro value hm
    obtain ⟨o, -, rfl⟩ := List.mem_map.1 hm
    simp [isCountable]
  rw [checkSummary_eq, hlength, factRows, statuses_factRowsFrom, hcountable, statusLines_summary, listLines_document]
  exact congrArg Except.ok (congrArg (· ++ [] ++ []) (countLine_int _ _ _))

end Counts

end Report

end JniSignatures
