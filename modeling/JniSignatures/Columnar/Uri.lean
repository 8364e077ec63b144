import JniSignatures.Text.Character
import JniSignatures.Text.Utf8
/-!
# Addresses with a scheme

A text that starts with a scheme and a colon may be an address in the generic syntax of resources: a
path, perhaps a query behind a question mark, perhaps a fragment behind a hash. What is not a plain
character of that syntax must be escaped by a percent sign and two hexadecimal digits. The texts are
those of paths in normal form, where no two slashes follow a colon, so an address has no host.
-/

namespace JniSignatures.Columnar

/-- An address: its scheme, its path and its query, these two with the escapes in them. An address
without a query has an empty one. -/
structure Uri where
  scheme : String
  path : List Char
  query : List Char
  deriving DecidableEq

namespace Uri

def isLetter (c : Char) : Bool :=
  ('a' ≤ c && c ≤ 'z') || ('A' ≤ c && c ≤ 'Z')

def isDigit (c : Char) : Bool :=
  '0' ≤ c && c ≤ '9'

/-- Whether a text is a scheme: a letter, then letters, digits and three signs. -/
def isScheme : List Char → Bool
  | [] => false
  | c :: cs => isLetter c && cs.all fun d => isLetter d || isDigit d || "+-.".toList.contains d

/-- Whether a character may stand in a path, a query and a fragment as it is. -/
def isPlain (c : Char) : Bool :=
  isLetter c || isDigit c || "-._~!$&'()*+,;=:@/?".toList.contains c

/-- Whether a text may follow the colon. A second hash may not. -/
def isRest (inFragment : Bool) : List Char → Bool
  | [] => true
  | '%' :: a :: b :: cs =>
    (Text.hexValue? a).isSome && (Text.hexValue? b).isSome && isRest inFragment cs
  | '#' :: cs => !inFragment && isRest true cs
  | c :: cs => isPlain c && isRest inFragment cs

/-- The text before the first colon, and the text behind it. -/
def split? (text : String) : Option (List Char × List Char) :=
  let cs := text.toList
  let scheme := cs.takeWhile (· != ':')
  if scheme.length < cs.length then some (scheme, cs.drop (scheme.length + 1)) else none

/-- The query of what follows the colon. -/
def queryOf (rest : List Char) : List Char :=
  match rest.dropWhile fun c => c != '?' && c != '#' with
  | '?' :: query => query.takeWhile (· != '#')
  | _ => []

/-- The address that a text is, if it is one. -/
def ofText? (text : String) : Option Uri :=
  match split? text with
  | none => none
  | some (scheme, rest) =>
    if isScheme scheme && isRest false rest then
      some ⟨String.ofList scheme, rest.takeWhile fun c => c != '?' && c != '#', queryOf rest⟩
    else none

/-- Whether a text is taken for an address, well formed or not. A scheme of one letter is taken for a
drive, and no scheme is known that has more than 36 characters. -/
def isLikely (text : String) : Bool :=
  match split? text with
  | none => false
  | some (scheme, _) => 2 ≤ scheme.length && scheme.length ≤ 36 && isScheme scheme

/-- The bytes of a text whose escapes are resolved. -/
def unescape : List Char → List UInt8
  | [] => []
  | '%' :: a :: b :: cs =>
    match Text.hexValue? a, Text.hexValue? b with
    | some high, some low => UInt8.ofNat (high * 16 + low) :: unescape cs
    | _, _ => Text.Utf8.encode ['%'] ++ unescape (a :: b :: cs)
  | c :: cs => Text.Utf8.encode [c] ++ unescape cs

/-- The bytes of the path. -/
def pathBytes (uri : Uri) : List UInt8 :=
  unescape uri.path

/-- A part of a query as a text. A plus sign stands for a blank, and a null character ends it. -/
def queryText (part : List Char) : String :=
  let blanks := part.map fun c => if c = '+' then ' ' else c
  String.ofList (Text.Utf8.decodeReplacing ((unescape blanks).takeWhile (· ≠ 0)))

/-- The parameters of the query in their order, each a key and a value. A parameter without an equals
sign has an empty value; one that has neither key nor equals sign is none. -/
def parameters (uri : Uri) : List (String × String) :=
  let parts := (uri.query.splitOn '&').filter fun part => !part.isEmpty
  parts.map fun part =>
    (queryText (part.takeWhile (· != '=')), queryText ((part.dropWhile (· != '=')).drop 1))

end Uri

end JniSignatures.Columnar
