import JniSignatures.Files.Fault
import JniSignatures.Files.Path
import JniSignatures.Keyed
import JniSignatures.Text.Utf8
/-!
# File trees

A file tree is a map from absolute places to nodes, with a working directory from which relative
texts start. A text is followed name by name: every name but the last must lead to a directory, and a
double dot leads back to the directory above. Every question that fails says exactly why, and for
which text. A file holds bytes.
-/

namespace JniSignatures.Files

/-- What a file holds. -/
structure Content where
  bytes ::
  toBytes : List UInt8
  deriving DecidableEq

/-- The content of a text in UTF-8. -/
def Content.ofText (text : List Char) : Content :=
  .bytes (Text.Utf8.encode text)

/-- A node of the tree. -/
inductive Node where
  | directory
  | file (content : Content) (executable : Bool)
  deriving DecidableEq

/-- A place: the names that lead to it from the root. -/
abbrev Location := List String

/-- A file tree with its working directory. -/
structure Tree where
  home : Location
  nodes : List (Location × Node)
  deriving DecidableEq

namespace Tree

/-- The node at a place. The working directory and all above it are directories. -/
def node? (t : Tree) (place : Location) : Option Node :=
  if place.isPrefixOf t.home then some .directory else t.nodes.lookup place

/-- The tree with a node at a place. -/
def insert (t : Tree) (place : Location) (node : Node) : Tree :=
  { t with nodes := Keyed.insert place node t.nodes }

/-- The tree without the node at a place. -/
def erase (t : Tree) (place : Location) : Tree :=
  { t with nodes := t.nodes.filter fun entry => entry.1 ≠ place }

/-! ## Following a text -/

/-- The greatest size of a name, in bytes. -/
def maxNameBytes : Nat := 255

/-- The size, in bytes, from which on a text is too long. -/
def maxTextBytes : Nat := 4096

/-- Follows steps from a place. -/
def walk (t : Tree) (place : Location) : List String → Except Errno Location
  | [] => .ok place
  | step :: rest =>
    match t.node? place with
    | none => .error .noEntry
    | some (.file _ _) => .error .notDirectory
    | some .directory =>
      if step = "." then t.walk place rest
      else if step = ".." then t.walk place.dropLast rest
      else if maxNameBytes < step.utf8ByteSize then .error .nameTooLong
      else if (t.node? (place ++ [step])).isNone then .error .noEntry
      else t.walk (place ++ [step]) rest

/-- Where a walk along a text starts. -/
def start (t : Tree) (text : String) : Location :=
  if isAbsolute text then [] else t.home

/-- Turns a refusal into a failure for the text, which must be one that can be followed. -/
def following {α : Type} (text : String) (outcome : Except Errno α) : Except Fault α :=
  if text.toList.contains '\x00' then .error .nullCharacter
  else if text = "" then .error (.refused .noEntry text)
  else if maxTextBytes ≤ text.utf8ByteSize then .error (.refused .nameTooLong text)
  else match outcome with
    | .ok result => .ok result
    | .error errno => .error (.refused errno text)

/-- The place that a text leads to. -/
def locate (t : Tree) (text : String) : Except Fault Location :=
  following text (t.walk (t.start text) (steps text))

/-- The node that a text leads to. -/
def find (t : Tree) (text : String) : Except Fault Node :=
  match t.locate text with
  | .ok place =>
    match t.node? place with
    | some node => .ok node
    | none => .error (.refused .noEntry text)
  | .error fault => .error fault

/-! ## Questions -/

/-- Whether a text leads to anything. -/
def leads (t : Tree) (text : String) : Bool :=
  match t.find text with
  | .ok _ => true
  | .error _ => false

def isDirectory (t : Tree) (text : String) : Bool :=
  match t.find text with
  | .ok .directory => true
  | _ => false

def isFile (t : Tree) (text : String) : Bool :=
  match t.find text with
  | .ok (.file _ _) => true
  | _ => false

/-- Whether a text leads to a file that may be run. -/
def isExecutable (t : Tree) (text : String) : Bool :=
  match t.find text with
  | .ok (.file _ executable) => executable
  | _ => false

/-- What a text leads to, if to anything. That it leads nowhere is no failure, unless a name in it is
too long. -/
def probe (t : Tree) (text : String) : Except Fault (Option Node) :=
  match t.find text with
  | .ok node => .ok (some node)
  | .error (.refused .noEntry _) => .ok none
  | .error (.refused .notDirectory _) => .ok none
  | .error .nullCharacter => .ok none
  | .error fault => .error fault

/-- Whether a path leads to a file. -/
def probeFile (t : Tree) (p : Path) : Except Fault Bool :=
  match t.probe p.text with
  | .ok (some (.file _ _)) => .ok true
  | .ok _ => .ok false
  | .error fault => .error fault

/-- Whether a path leads to a directory. -/
def probeDirectory (t : Tree) (p : Path) : Except Fault Bool :=
  match t.probe p.text with
  | .ok (some .directory) => .ok true
  | .ok _ => .ok false
  | .error fault => .error fault

/-- The content of a file. -/
def read (t : Tree) (text : String) : Except Fault Content :=
  match t.find text with
  | .ok (.file content _) => .ok content
  | .ok .directory => .error (.refused .isDirectory text)
  | .error fault => .error fault

/-- The files below a place, each with the names that lead to it from there. -/
def filesBelow (t : Tree) (place : Location) : List (List String × Content) :=
  t.nodes.filterMap fun (target, node) => match node with
    | .file content _ =>
      if place.isPrefixOf target then some (target.drop place.length, content) else none
    | .directory => none

end Tree

end JniSignatures.Files
