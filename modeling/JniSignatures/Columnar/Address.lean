import JniSignatures.Files.Change
import JniSignatures.Columnar.Rows
import JniSignatures.Columnar.Store
/-!
# Where a table is

A text names a table in one of two ways. It is the path of a file if there is such a file, unless it
looks like an address; and it is an address if it is well formed as one, with a scheme that tells the
store. Of the stores only two can be had: the files themselves, and a memory in which nothing is. What
is neither is a path again.
-/

namespace JniSignatures.Columnar

open Files (Content Errno Location Path Tree)

/-- Why a table cannot be read or written. -/
inductive Fault where
  /-- The scheme of an address names no store. -/
  | unknownScheme (text : String)
  /-- An address of the files has a path that is not absolute. -/
  | relative (text : String)
  /-- A path of a file looks like an address. -/
  | notLocal (text : String)
  | store (fault : StoreFault)
  | undecodable (refusal : Text.Utf8.Refusal)
  /-- Whether there is such a file cannot be told. -/
  | unreachable (errno : Errno) (path : String)
  | notOpened (errno : Errno) (path : String)
  | nullCharacter (path : String)
  /-- A path in the memory looks like an address. -/
  | notInMemory (path : String)
  /-- A path in the memory has two slashes in a row. -/
  | emptyName
  /-- A path in the memory ends in a slash. -/
  | directoryName (path : String)
  /-- The memory has no such directory. -/
  | noDirectory (path : String)
  | missing (path : String)
  | file (fault : FileFault)
  deriving DecidableEq

namespace Fault

/-- A message about a refusal by the system, with the number in front and its meaning behind. -/
def withErrno (errno : Errno) (message : String) : String :=
  "[Errno " ++ toString errno.number ++ "] " ++ message ++ ". Detail: [errno " ++
    toString errno.number ++ "] " ++ errno.message

def message : Fault → String
  | .unknownScheme text => "Unrecognized filesystem type in URI: " ++ text
  | .relative text => "File URI cannot be relative: '" ++ text ++ "'"
  | .notLocal text => "Expected a local filesystem path, got a URI: '" ++ text ++ "'"
  | .store fault => fault.message
  | .undecodable refusal => refusal.message
  | .unreachable errno path => withErrno errno ("Failed stat()ing path '" ++ path ++ "'")
  | .notOpened errno path => withErrno errno ("Failed to open local file '" ++ path ++ "'")
  | .nullCharacter path => "Embedded NUL char in path: '" ++ path ++ "'"
  | .notInMemory path => "Expected a filesystem path, got a URI: '" ++ path ++ "'"
  | .emptyName => "Empty path component"
  | .directoryName path => "Not a regular file: '" ++ path ++ "'"
  | .noDirectory path => withErrno .noEntry ("Path does not exist '" ++ path ++ "'")
  | .missing path => path
  | .file fault => fault.message

def kind : Fault → Kind
  | .unknownScheme _ | .relative _ | .notLocal _ | .nullCharacter _ | .notInMemory _ | .emptyName =>
    .table
  | .store fault => fault.kind
  | .undecodable _ => .unicodeDecode
  | .unreachable errno _ | .notOpened errno _ => errno.kind
  | .directoryName _ => .system
  | .noDirectory _ | .missing _ => .fileNotFound
  | .file fault => fault.kind

end Fault

/-! ## Places -/

/-- The place of a table. -/
inductive Place where
  | file (path : String)
  /-- A place in a memory in which nothing is. -/
  | memory (path : String)
  deriving DecidableEq

/-- The byte of a slash. -/
def slash : UInt8 := 0x2F

/-- Bytes without the slashes at their end, except a slash that is alone. -/
def trimEnd (data : List UInt8) : List UInt8 :=
  if data = [slash] then data else (data.reverse.dropWhile (· = slash)).reverse

/-- The text of bytes. -/
def textOf (data : List UInt8) : Except Fault String :=
  ((Text.Utf8.decode data).mapError .undecodable).map String.ofList

namespace Uri

/-- The file of an address. -/
def filePlace (uri : Uri) : Except Fault Place := do
  let path ← textOf (trimEnd uri.pathBytes)
  if Uri.isLikely path then .error (.notLocal path)
  else if path.toList.contains '\x00' then .error (.nullCharacter path)
  else .ok (.file path)

/-- The place in the memory of an address. -/
def memoryPlace (uri : Uri) : Except Fault Place := do
  let path ← textOf (uri.pathBytes.dropWhile (· = slash))
  if Uri.isLikely path then .error (.notInMemory path) else .ok (.memory path)

/-- The place of an address that has the given text. -/
def place (uri : Uri) (text : String) : Except Fault Place :=
  match uri.scheme with
  | "file" => if uri.path.head? = some '/' then uri.filePlace else .error (.relative text)
  | "local" => uri.filePlace
  | "mock" => uri.memoryPlace
  | scheme => match Store.ofScheme? scheme with
    | some store => .error (.store (store.refusal uri))
    | none => .error (.unknownScheme text)

end Uri

/-- Whether a phrase stands in a text. -/
def hasPhrase (phrase : List Char) : List Char → Bool
  | [] => phrase.isEmpty
  | c :: cs => phrase.isPrefixOf (c :: cs) || hasPhrase phrase cs

/-- Whether a store's refusal reads as if the text were no address at all. -/
def deniesAddress : Except Fault Place → Bool
  | .error (.store fault) =>
    ["empty scheme", "Cannot parse URI"].any fun phrase =>
      hasPhrase phrase.toList fault.message.toList
  | _ => false

/-- The place of a text that is an address if it can be one, and otherwise what `path` says. -/
def placeOr (path : Except Fault Place) (text : String) : Except Fault Place :=
  match Uri.ofText? text with
  | some uri => if deniesAddress (uri.place text) then path else uri.place text
  | none => path

/-- The place that a text names. -/
def locate (tree : Tree) (text : String) : Except Fault Place :=
  if Uri.isLikely text then placeOr (.error (.notLocal text)) text
  else match tree.probe text with
    | .ok (some _) => .ok (.file text)
    | .ok none => placeOr (.ok (.file text)) text
    | .error (.refused errno _) => .error (.unreachable errno text)
    | .error .nullCharacter => .error (.nullCharacter text)

/-! ## The memory -/

/-- The names of a path in the memory. -/
def memoryNames (path : String) : Except Fault (List String) :=
  let inner := if path.toList.getLast? = some '/' then String.ofList path.toList.dropLast else path
  if inner = "" then .ok []
  else if (Files.names inner).contains "" then .error .emptyName
  else .ok (Files.names inner)

/-- Writes into the memory, which nobody reads. Only the directory at its root is there. -/
def writeMemory (path : String) : Except Fault Unit := do
  if path.toList.getLast? = some '/' then .error (.directoryName path)
  else if (← memoryNames path).length = 1 then .ok ()
  else .error (.noDirectory path)

/-- Reads from the memory, of which only the directory at its root is there. -/
def readMemory (path : String) : Except Fault (List Json) := do
  if (← memoryNames path).isEmpty then .ok [] else .error (.missing path)

/-! ## The files -/

/-- Why a file with a table cannot be opened. -/
def ofFiles (path : String) : Files.Fault → Fault
  | .refused errno _ => .notOpened errno path
  | .nullCharacter => .nullCharacter path

/-- The rows of the table in a file, or in all files of a directory. -/
def readFile (tree : Tree) (path : String) : Except Fault (List Json) :=
  match tree.probe path, tree.locate path with
  | .ok (some (.file content _)), _ =>
    match Rows.ofContent content with
    | .ok rows => .ok (rows.cells.map .object)
    | .error flaw => .error (.file ⟨path, flaw, false⟩)
  | .ok (some .directory), .ok place =>
    match Rows.ofParts (Part.ofFiles path (tree.filesBelow place)) with
    | .ok cells => .ok (cells.map .object)
    | .error fault => .error (.file fault)
  | .error (.refused errno _), _ => .error (.unreachable errno path)
  | _, _ => .error (.missing path)

/-! ## Tables -/

/-- The rows of the table that a text names, as objects. -/
def rowsAt (tree : Tree) (text : String) : Except Fault (List Json) := do
  match ← locate tree text with
  | .memory path => readMemory path
  | .file path => readFile tree path

/-- The tree with a table put where a text says. -/
def put (tree : Tree) (text : String) (rows : List FactRow) : Except Fault Tree := do
  match ← locate tree text with
  | .memory path => (writeMemory path).map fun _ => tree
  | .file path => (tree.write path (.bytes (Form.ofFacts rows))).mapError (ofFiles path)

end JniSignatures.Columnar
