import JniSignatures.Kind
import JniSignatures.Text.Character
/-!
# Symbols of native methods

A native method is linked by a symbol made from its qualified name: underscores give way to `_1`,
code points beyond ASCII to `_0` and their hexadecimal digits, and the pieces between the dots are
then joined by underscores. The three steps run over the whole text one after the other.

Methods that share a symbol need a longer one, with their argument types, which is not made here:
for them there is only `Fault.overloaded`.
-/

namespace JniSignatures.Symbol

/-- What every symbol starts with. -/
def lead : List Char := "Java_".toList

/-- The function that a library runs when it is loaded. -/
def onLoad : String := "JNI_OnLoad"

/-! ## From qualified names to symbols -/

/-- Frees the underscore for its use as a separator. -/
def freeUnderscore (points : List CodePoint) : List CodePoint :=
  points.flatMap fun c : CodePoint => if c = '_' then ['_', '1'] else [c]

/-- A code point in ASCII: beyond it, at least four hexadecimal digits after `_0`. -/
def asciiPoint (c : CodePoint) : List Char :=
  if c.toNat ≤ 127 then [Char.ofNat c.toNat] else '_' :: '0' :: Text.hex 4 c.toNat

/-- A text in ASCII. -/
def ascii (t : Text) : String :=
  String.ofList (t.points.flatMap asciiPoint)

/-- The symbol of a qualified name. -/
def ofName (qualifiedName : Text) : String :=
  let escaped := ascii ⟨freeUnderscore qualifiedName.points⟩
  String.ofList (lead ++ ['_'].intercalate (escaped.toList.splitOn '.'))

/-- Why a method has no symbol here. -/
inductive Fault where
  | overloaded (qualifiedName : Text)
  deriving DecidableEq

def Fault.message : Fault → Text
  | .overloaded qualifiedName => "overloaded native method not supported: " ++ qualifiedName

def Fault.kind : Fault → Kind
  | .overloaded _ => .unsupportedMangling

/-- The symbol of a method that shares it with no other. -/
def ofMethod (isShared : Bool) (qualifiedName : Text) : Except Fault String :=
  if isShared then .error (.overloaded qualifiedName) else .ok (ofName qualifiedName)

/-! ## Sharing -/

/-- How many of the names have the symbol. -/
def count (qualifiedNames : List Text) (symbol : String) : Nat :=
  (qualifiedNames.map ofName).count symbol

/-- The symbols that more than one of the names have, each once. -/
def shared (qualifiedNames : List Text) : List String :=
  (qualifiedNames.map ofName).eraseDups.filter fun symbol => 1 < count qualifiedNames symbol

/-! ## Recognition -/

/-- Whether a function's name is a symbol of a native method. -/
def isSymbol (name : String) : Bool :=
  lead.isPrefixOf name.toList

/-- The remark that keeps a function out of the matching. -/
def ignoreMark : String := "JNIAnalyzer:IGNORE"

/-- Whether a text occurs in another one. -/
def occursIn (piece : List Char) : List Char → Bool
  | [] => piece.isEmpty
  | c :: cs => piece.isPrefixOf (c :: cs) || occursIn piece cs

/-- Whether a comment holds the remark. -/
def isIgnored (comment : Option String) : Bool :=
  comment.any fun text => occursIn ignoreMark.toList text.toList

end JniSignatures.Symbol
