/-!
# Paths

A path is a text of names between slashes. `Path.ofText` brings it into normal form: empty names and
single dots vanish, double dots stay, because the name before them may be a link in the eyes of the
system. A text that starts with exactly two slashes keeps both. The text of the empty path is a dot.
`steps` cuts a text for a walk through the file tree, where a final slash counts as a dot: it demands
a directory.
-/

namespace JniSignatures.Files

/-- The names of a text between its slashes. -/
def names (text : String) : List String :=
  (text.toList.splitOn '/').map String.ofList

/-- Whether a text starts at the root. -/
def isAbsolute (text : String) : Bool :=
  text.toList.head? == some '/'

/-- The steps of a walk along a text. -/
def steps (text : String) : List String :=
  let walk := (names text).filter (· ≠ "")
  if text.toList.getLast? = some '/' then walk ++ ["."] else walk

/-- A path in normal form: the slashes in front, and the names. -/
structure Path where
  anchor : String
  parts : List String
  deriving DecidableEq

namespace Path

/-- The slashes in front of a text that a normal form keeps. -/
def anchorOf (text : String) : String :=
  match text.toList with
  | ['/', '/'] => "//"
  | '/' :: '/' :: c :: _ => if c = '/' then "/" else "//"
  | '/' :: _ => "/"
  | _ => ""

/-- The normal form of a text. -/
def ofText (text : String) : Path :=
  { anchor := anchorOf text
    parts := (names text).filter fun name => name ≠ "" ∧ name ≠ "." }

/-- The text of a path. -/
def text (p : Path) : String :=
  if p.anchor = "" ∧ p.parts = [] then "." else p.anchor ++ String.intercalate "/" p.parts

/-- The path `q` as seen from `p`. -/
def join (p q : Path) : Path :=
  if q.anchor = "" then { p with parts := p.parts ++ q.parts } else q

/-- The path of a text as seen from `p`. -/
def child (p : Path) (text : String) : Path :=
  p.join (ofText text)

/-- The last name, or nothing for a root. -/
def name (p : Path) : String :=
  p.parts.getLast?.getD ""

/-- The last name without its last suffix. A suffix starts with a dot that is neither the first nor
the last character. -/
def stem (p : Path) : String :=
  let cs := p.name.toList
  let suffix := (cs.reverse.takeWhile (· != '.')).length + 1
  if suffix = 1 ∨ cs.length ≤ suffix then p.name else String.ofList (cs.take (cs.length - suffix))

/-- Follows names from a directory, a double dot leading back to the directory above. -/
def fold (start : List String) (parts : List String) : List String :=
  parts.foldl (fun place part => if part = ".." then place.dropLast else place ++ [part]) start

/-- The absolute path without double dots, for the working directory `home`. -/
def absolute (home : List String) (p : Path) : Path :=
  { anchor := "/", parts := fold (if p.anchor = "" then home else []) p.parts }

/-- The path and the directories above it, itself first. -/
def ancestors (p : Path) : List Path :=
  (List.range p.parts.length).map fun k => { p with parts := p.parts.take (p.parts.length - k) }

end Path

/-- The text of `name` in the directory of the text `dir`. -/
def joinText (dir name : String) : String :=
  if isAbsolute name then name
  else if dir = "" ∨ dir.toList.getLast? = some '/' then dir ++ name
  else dir ++ "/" ++ name

end JniSignatures.Files
