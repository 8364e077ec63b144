import Mathlib
import JniSignatures.Columnar.Library
import JniSignatures.Proofs.Files.Writing
import JniSignatures.Proofs.Report.Documents
import JniSignatures.Proofs.Running
/-!
# The library keeps tables

A text that does not look like an address names the file that has it as its path (`locate_eq_file`,
`locate_of_holds`), and the rows of a table are told by its bytes (`facts?_ofFacts`). So under such a text the
library keeps tables (`library_keeps`).
-/

namespace JniSignatures.Columnar

open Files (Content Location Tree)

/-! ## The byte form -/

namespace Form

theorem row_toJson (r : FactRow) : row r.toJson = r := by
  have htext : ∀ text? : Option Text, Form.text? (some (Json.ofText? text?)) = text? := by
    intro text?
    cases text? <;> rfl
  have hint : ∀ n? : Option Int, Form.int? (some (Json.ofInt? n?)) = n? := by
    intro n?
    cases n? <;> rfl
  show FactRow.mk _ _ _ _ _ _ = r
  simp only [FactRow.toJson, FactRow.cells, Json.get?, List.lookup, Text.ofString_beq, String.reduceBEq]
  rw [hint, htext, htext, htext, hint, htext]

/-- The rows of a table are read from its bytes. -/
theorem facts?_ofFacts {rows : List FactRow} (h : ∀ r ∈ rows, Table.fits r) : facts? (ofFacts rows) = some rows := by
  have hwritable : (Json.array (rows.map FactRow.toJson)).isWritable := by
    refine Json.isWritable_array fun item hm => ?_
    obtain ⟨r, hr, rfl⟩ := List.mem_map.1 hm
    exact Report.isWritable_toJson (h r hr)
  have hread : Document.read depth (Text.Utf8.encode (Json.document (.array (rows.map FactRow.toJson)))) =
      .ok (.array (rows.map FactRow.toJson)) :=
    Document.read_document (FactRow.plain_rows h) hwritable (FactRow.nesting_rows_le rows)
  generalize hbytes : Text.Utf8.encode (Json.document (.array (rows.map FactRow.toJson))) = bytes at hread
  have hfront : front.isPrefixOf (ofFacts rows) := by
    rw [List.isPrefixOf_iff_prefix, ofFacts, hbytes, List.append_assoc]
    exact List.prefix_append _ _
  have hmiddle : ((ofFacts rows).drop front.length).take ((ofFacts rows).length - front.length - mark.length) =
      bytes := by
    rw [ofFacts, hbytes, List.append_assoc, List.drop_left, List.length_append, List.length_append,
      Nat.add_sub_cancel_left, Nat.add_sub_cancel, List.take_left]
  rw [facts?, if_pos hfront]
  dsimp only
  rw [hmiddle, hread]
  simp [Function.comp_def, row_toJson]

end Form

/-! ## Places -/

section Places

variable {tree : Tree} {text : String} {place : Place}

theorem scheme_of_place {uri : Uri} (h : uri.place text = .ok place) :
    uri.scheme = "file" ∨ uri.scheme = "local" ∨ uri.scheme = "mock" := by
  unfold Uri.place at h
  split at h
  · exact .inl ‹_›
  · exact .inr (.inl ‹_›)
  · exact .inr (.inr ‹_›)
  · split at h <;> cases h

/-- What names a place that can be had looks like an address: its scheme is no drive. -/
theorem isLikely_of_place {uri : Uri} (hu : Uri.ofText? text = some uri) (hp : uri.place text = .ok place) :
    Uri.isLikely text := by
  unfold Uri.ofText? at hu
  cases hs : Uri.split? text with
  | none => simp [hs] at hu
  | some parts =>
    obtain ⟨scheme, rest⟩ := parts
    simp only [hs, Option.ite_none_right_eq_some, Option.some.injEq, Bool.and_eq_true] at hu
    obtain ⟨⟨hscheme, -⟩, rfl⟩ := hu
    have hlength : 2 ≤ scheme.length ∧ scheme.length ≤ 36 := by
      have heq : ∀ word, String.ofList scheme = word → scheme = word.toList := by
        rintro word rfl
        exact String.toList_ofList.symm
      rcases scheme_of_place hp with h | h | h <;> rw [heq _ h] <;> decide
    simp [Uri.isLikely, hs, hscheme, hlength]

theorem locate_eq_file (hl : Uri.isLikely text = false) (h : locate tree text = .ok place) : place = .file text := by
  unfold locate at h
  rw [if_neg (by simp [hl])] at h
  cases hp : tree.probe text with
  | error fault => rw [hp] at h; cases fault <;> cases h
  | ok node? =>
    rw [hp] at h
    cases node? with
    | some node => exact (Except.ok.inj h).symm
    | none =>
      unfold placeOr at h
      cases hu : Uri.ofText? text with
      | none =>
        rw [hu] at h
        exact (Except.ok.inj h).symm
      | some uri =>
        rw [hu] at h
        dsimp only at h
        -- An address that is no likely one names no place, so the text is a path.
        split_ifs at h with hd
        · exact (Except.ok.inj h).symm
        · exact absurd (isLikely_of_place hu h) (by simp [hl])

theorem locate_of_holds (hl : Uri.isLikely text = false) {file : Location} {content : Content}
    (h : Tree.Holds tree text file content) : locate tree text = .ok (.file text) := by
  obtain ⟨executable, hp⟩ := h.probe
  rw [locate, if_neg (by simp [hl]), hp]

end Places

/-! ## Tables -/

section Tables

variable {before after : Tree} {path : String} {rows : List FactRow}

theorem put_eq_ok (hl : Uri.isLikely path = false) (h : put before path rows = .ok after) :
    before.write path (.bytes (Form.ofFacts rows)) = .ok after := by
  obtain ⟨place, hlocate, h⟩ := bind_eq_ok_iff.1 h
  obtain rfl := locate_eq_file hl hlocate
  exact mapError_eq_ok_iff.1 h

theorem integersFault?_eq_none_iff {cells : List (Option Int)} :
    integersFault? cells = none ↔ ∀ cell ∈ cells, cell.all Table.fitsColumn := by
  rw [← List.all_eq_true, integersFault?]
  split <;> simp_all

theorem textsFault?_eq_none_iff {cells : List (Option Text)} :
    textsFault? cells = none ↔ ∀ cell ∈ cells, cell.all Table.fitsText := by
  rw [textsFault?, List.findSome?_eq_none_iff]
  refine forall₂_congr fun cell _ => ?_
  cases cell with
  | none => simp
  | some text =>
    rw [Option.bind_some, Option.map_eq_none_iff, Text.Utf8.unencodable?_eq_none_iff, ← Text.isSome_string?_iff]
    rfl

/-- The rows are a table unless one of them does not fit the columns. -/
theorem cellFault?_eq_none_iff : cellFault? rows = none ↔ ∀ r ∈ rows, Table.fits r := by
  simp only [cellFault?, Option.orElse_eq_orElse, Option.orElse_eq_or, Option.or_eq_none_iff,
    integersFault?_eq_none_iff, textsFault?_eq_none_iff, List.forall_mem_map, Table.fits_iff, forall₂_and]

/-- What is written has been put, unless a row lacks its name. -/
theorem write_eq_ok (hl : Uri.isLikely path = false) (h : write before path rows = (.ok (), after)) :
    (∀ r ∈ rows, Table.fits r) ∧ before.write path (.bytes (Form.ofFacts rows)) = .ok after := by
  unfold write at h
  cases hcells : cellFault? rows with
  | some fault => rw [hcells] at h; cases h
  | none =>
    rw [hcells] at h
    refine ⟨cellFault?_eq_none_iff.1 hcells, put_eq_ok hl ?_⟩
    cases hp : put before path rows with
    | error fault => rw [hp] at h; cases h
    | ok next =>
      rw [hp] at h
      dsimp only at h
      split_ifs at h
      · cases h
      · cases h
        rfl

theorem discard_cases (tree : Tree) (path : String) :
    discard tree path = tree ∨ tree.remove path = .ok (discard tree path) := by
  unfold discard
  cases tree.remove path with
  | ok next => exact .inr rfl
  | error fault => exact .inl rfl

/-- What is not written in full is discarded. -/
theorem write_eq_error (hl : Uri.isLikely path = false) {fault : WriteFault}
    (h : write before path rows = (.error fault, after)) :
    ∃ begun, (begun = before ∨ ∃ content, before.write path content = .ok begun) ∧
      (after = begun ∨ begun.remove path = .ok after) := by
  unfold write at h
  cases hcells : cellFault? rows with
  | some fault =>
    rw [hcells] at h
    cases h
    exact ⟨before, .inl rfl, .inl rfl⟩
  | none =>
    rw [hcells] at h
    cases hp : put before path rows with
    | error fault =>
      rw [hp] at h
      cases h
      exact ⟨before, .inl rfl, discard_cases before path⟩
    | ok next =>
      rw [hp] at h
      dsimp only at h
      split_ifs at h
      · cases h
        exact ⟨next, .inr ⟨_, put_eq_ok hl hp⟩, discard_cases next path⟩
      · cases h

theorem read_of_written (hl : Uri.isLikely path = false) (hfits : ∀ r ∈ rows, Table.fits r) {tree : Tree}
    (h : tree.read path = .ok (.bytes (Form.ofFacts rows))) : library.read tree path = .ok (.ofFacts rows) := by
  obtain ⟨place, hplace⟩ := Tree.holds_of_read h
  obtain ⟨executable, hprobe⟩ := hplace.probe
  have hrows : Rows.ofContent (.bytes (Form.ofFacts rows)) = .ok (Rows.ofFacts rows) := by
    rw [Rows.ofContent, Form.facts?_ofFacts hfits]
  have hat : rowsAt tree path = .ok (rows.map FactRow.toJson) := by
    rw [rowsAt, locate_of_holds hl hplace]
    show readFile tree path = _
    rw [readFile, hprobe]
    simp [hrows, Rows.ofFacts, FactRow.toJson]
  simp [library, hat, Table.Rows.ofFacts]

/-- Under a path that does not look like an address the library keeps tables. -/
theorem library_keeps (hl : Uri.isLikely path = false) : library.Keeps path := by
  have hwrite : ∀ {before after : Tree} {rows : List FactRow} {result : Except Table.Fault Unit},
      library.write before path rows = (result, after) →
      ∃ outcome, write before path rows = (outcome, after) ∧ result = outcome.mapError fun fault =>
        ⟨fault.kind, fault.message⟩ := by
    intro before after rows result h
    obtain ⟨hresult, hafter⟩ := Prod.mk.inj h
    exact ⟨_, Prod.ext rfl hafter, hresult.symm⟩
  have hwritten : ∀ {before after : Tree} {rows : List FactRow},
      library.write before path rows = (.ok (), after) → write before path rows = (.ok (), after) := by
    intro before after rows h
    obtain ⟨outcome, hw, hresult⟩ := hwrite h
    rw [mapError_eq_ok_iff.1 hresult.symm] at hw
    exact hw
  constructor
  · intro before after rows h
    obtain ⟨hfits, hw⟩ := write_eq_ok hl (hwritten h)
    exact ⟨_, hw, fun later => read_of_written hl hfits⟩
  · intro before after rows fault h
    obtain ⟨outcome, hw, hresult⟩ := hwrite h
    cases outcome with
    | ok => cases hresult
    | error fault => exact write_eq_error hl hw
  · intro before after rows h
    exact (write_eq_ok hl (hwritten h)).1

end Tables

end JniSignatures.Columnar
