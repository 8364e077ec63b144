import JniSignatures.Files.Change
import JniSignatures.Kind
import JniSignatures.Report.FactRow
/-!
# The library of tables

Fact tables are kept in files in a columnar form that a library writes and reads. What is relied on of
that library are the operations of `Library`: one makes a table of rows and writes it where a text
says, another reads the table that a text names, and a third does so for a text with a surrogate in it.
Of a table that is read only two things are asked: how many rows it has, and whether its rows are a
given value.

`Library.Keeps` says what the library promises for a text that is the path of a file: a table that has
been written there reads back, for as long as the file holds the same bytes; and a table that could not
be written leaves all other files alone. The library takes some texts for addresses of other stores, of
which none of this holds.
-/

namespace JniSignatures.Table

open Files (Content Path Tree)

/-- Why a table cannot be written or read. -/
structure Fault where
  kind : Kind
  message : String
  deriving DecidableEq

/-- The rows of a table as far as they are looked at: their number, and whether they are a value. -/
structure Rows where
  count : Nat
  agrees : Json → Bool

/-- The rows of a table as it was written. -/
def Rows.ofFacts (rows : List FactRow) : Rows :=
  { count := rows.length, agrees := (Json.array (rows.map FactRow.toJson)).agrees }

/-- A library that keeps tables. -/
structure Library where
  /-- Writes a table where a text says. The changes made before a failure stay. -/
  write : Tree → String → List FactRow → Except Fault Unit × Tree
  /-- The rows of the table that a text names. -/
  read : Tree → String → Except Fault Rows
  /-- The rows under a path that is no string, as seen from a directory, if there is a file of that path.
  Which file a surrogate leads to is up to the system. -/
  stray : Tree → Path → Text → Except Fault (Option Rows)

/-- The greatest integer that fits a column of integers, which has 64 bits. -/
def maxInt : Int := 9223372036854775807

/-- Whether an integer fits a column of integers. -/
def fitsColumn (n : Int) : Bool :=
  -maxInt - 1 ≤ n && n ≤ maxInt

/-- Whether a text fits a column of texts, which are kept in UTF-8. -/
def fitsText (t : Text) : Bool :=
  t.string?.isSome

/-- Whether the cells of a row fit their columns. -/
def fits (row : FactRow) : Bool :=
  row.methodIndex.all fitsColumn && row.qualifiedName.all fitsText &&
    row.candidateName.all fitsText && row.status.all fitsText &&
    row.parameterCount.all fitsColumn && row.detail.all fitsText

namespace Library

/-- What the library promises for the path of a file. -/
structure Keeps (lib : Library) (path : String) : Prop where
  /-- A table that has been written is a file, and its rows are read from that file. -/
  written : ∀ {before after rows}, lib.write before path rows = (.ok (), after) →
    ∃ content, before.write path content = .ok after ∧
      ∀ later : Tree, later.read path = .ok content → lib.read later path = .ok (.ofFacts rows)
  /-- When a table cannot be written, at most the file at its path is changed or gone. -/
  failed : ∀ {before after rows fault}, lib.write before path rows = (.error fault, after) →
    ∃ begun, (begun = before ∨ ∃ content, before.write path content = .ok begun) ∧
      (after = begun ∨ begun.remove path = .ok after)
  /-- All rows of a table that has been written fit its columns. -/
  fits : ∀ {before after rows}, lib.write before path rows = (.ok (), after) →
    ∀ row ∈ rows, fits row

end Library

end JniSignatures.Table
