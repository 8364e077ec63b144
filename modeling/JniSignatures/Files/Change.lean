import JniSignatures.Files.Tree
/-!
# Changing a file tree

Making a directory, writing a file and removing one either give the changed tree or fail and leave
the tree as it was. What consists of several such changes runs in `FileM`, where the changes made
before a failure stay.
-/

namespace JniSignatures.Files

namespace Tree

/-! ## Single changes -/

/-- The directory that steps lead to. -/
def walkDirectory (t : Tree) (place : Location) (steps : List String) : Except Errno Location :=
  match t.walk place steps with
  | .error errno => .error errno
  | .ok above =>
    match t.node? above with
    | some .directory => .ok above
    | some (.file _ _) => .error .notDirectory
    | none => .error .noEntry

/-- The place for the last of the steps, in a directory that must be there; `taken` is the refusal if
the last step is a dot or a double dot. -/
def slot (t : Tree) (place : Location) (steps : List String) (taken : Errno) :
    Except Errno Location :=
  match t.walkDirectory place steps.dropLast with
  | .error errno => .error errno
  | .ok above =>
    match steps.getLast? with
    | none => .error taken
    | some last =>
      if last = "." ∨ last = ".." then .error taken
      else if maxNameBytes < last.utf8ByteSize then .error .nameTooLong
      else .ok (above ++ [last])

/-- The tree with a directory at a place where nothing is. -/
def addDirectory (t : Tree) (place : Location) : Except Errno Tree :=
  match t.node? place with
  | some _ => .error .exists
  | none => .ok (t.insert place .directory)

/-- The tree with one more directory. A final slash is no matter. -/
def makeDirectory (t : Tree) (text : String) : Except Fault Tree :=
  following text <|
    (t.slot (t.start text) ((names text).filter (· ≠ "")) .exists).bind t.addDirectory

/-- The tree with a file at a place where no directory is. A file that was there keeps its mode. -/
def putFile (t : Tree) (content : Content) (place : Location) : Except Errno Tree :=
  match t.node? place with
  | some .directory => .error .isDirectory
  | some (.file _ executable) => .ok (t.insert place (.file content executable))
  | none => .ok (t.insert place (.file content false))

/-- The tree with a file written. -/
def write (t : Tree) (text : String) (content : Content) : Except Fault Tree :=
  following text <| (t.slot (t.start text) (steps text) .isDirectory).bind (t.putFile content)

/-- The tree without the file at a place. -/
def removeFile (t : Tree) (place : Location) : Except Errno Tree :=
  match t.node? place with
  | some (.file _ _) => .ok (t.erase place)
  | some .directory => .error .isDirectory
  | none => .error .noEntry

/-- The tree with a file removed. -/
def remove (t : Tree) (text : String) : Except Fault Tree :=
  following text <| (t.walk (t.start text) (steps text)).bind t.removeFile

end Tree

/-! ## Several changes -/

/-- An action that may change the tree and may fail; changes made before a failure stay. -/
abbrev FileM := ExceptT Fault (StateM Tree)

namespace FileM

/-- Makes a single change, or none if it fails. -/
def change (step : Tree → Except Fault Tree) : FileM Unit := do
  match step (← get) with
  | .ok next => set next
  | .error fault => throw fault

/-- Makes a directory unless there is one. -/
def ensureDirectory (text : String) : FileM Unit :=
  tryCatch (change (·.makeDirectory text)) fun fault => do
    if (← get).isDirectory text then pure () else throw fault

/-- Makes those of the directories, in their order, to which nothing leads yet. -/
def makeMissing : List String → FileM Unit
  | [] => pure ()
  | text :: rest => do
    if (← get).leads text then pure () else ensureDirectory text
    makeMissing rest

/-- The texts of the directories above a text, outermost first. -/
def textsAbove (text : String) : List String :=
  let walk := (names text).filter (· ≠ "")
  let lead := String.ofList (text.toList.takeWhile (· == '/'))
  (List.range (walk.length - 1)).map fun k => lead ++ String.intercalate "/" (walk.take (k + 1))

/-- Makes a directory and those above it, from the outside in. -/
def makeDirectories (text : String) : FileM Unit := do
  makeMissing (textsAbove text)
  ensureDirectory text

/-- Makes the first of the directories; if only those above it are missing, makes these before. -/
def makePath : List String → FileM Unit
  | [] => pure ()
  | text :: above =>
    tryCatch (change (·.makeDirectory text)) fun fault => do
      if fault = .refused .noEntry text ∧ above ≠ [] then
        makePath above
        ensureDirectory text
      else if (← get).isDirectory text then pure ()
      else throw fault

end FileM

/-! ## Comparing two trees -/

namespace Tree

/-- The text that leads from the working directory to a place in it. -/
def relative? (t : Tree) (place : Location) : Option String :=
  if t.home.isPrefixOf place then some (String.intercalate "/" (place.drop t.home.length)) else none

/-- The content of the file at a place. -/
def content? (t : Tree) (place : Location) : Option Content :=
  match t.node? place with
  | some (.file content _) => some content
  | _ => none

/-- The files below the working directory whose content is new or differs from `before`. -/
def changes (before after : Tree) : List (String × Content) :=
  after.nodes.filterMap fun (place, node) => do
    let content ← match node with
      | .file content _ => some content
      | .directory => none
    if before.content? place = some content then none
    else return (← after.relative? place, content)

/-- The files of `before` below the working directory that are gone. -/
def losses (before after : Tree) : List String :=
  before.nodes.filterMap fun (place, _) =>
    if (before.content? place).isSome && (after.content? place).isNone then before.relative? place
    else none

end Tree

end JniSignatures.Files
