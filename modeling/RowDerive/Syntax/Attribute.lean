import RowDerive.Syntax.Ty

/-!
# Attributes

An attribute is a path with arguments, with a value, or alone. The arguments keep their places, since
they are read later, by whoever knows the attribute; the tokens of the whole attribute are nowhere.
-/

namespace RowDerive

/-- A path of names alone, as attributes have it. -/
structure PlainPath where
  rooted : Bool
  names : List String
deriving DecidableEq, Repr

namespace PlainPath

/-- Whether the path is the one name `x`. -/
def isName (p : PlainPath) (x : String) : Bool := !p.rooted && p.names == [x]

def tokens (p : PlainPath) : List Token :=
  (if p.rooted then Token.op "::" else []) ++
    Token.sepBy (Token.op "::") (p.names.map fun x => [Token.word x])

/-- The path as a fault names it. -/
def text (p : PlainPath) : String :=
  (if p.rooted then "::" else "") ++ "::".intercalate p.names

end PlainPath

/-- What follows the path of an attribute. -/
inductive AttributeInput where
  | none
  /-- Arguments, and the place of what closes them. -/
  | args (content : List Token) (close : Span)
  /-- `=` and a value, and the place of the `=`. -/
  | value (eq : Span)
deriving DecidableEq, Repr

/-- An attribute in its place. -/
structure Attribute where
  path : Located PlainPath
  input : AttributeInput
  /-- From `#` to `]`. -/
  span : Span
  /-- The attribute as written out again. -/
  tokens : List Token
deriving DecidableEq, Repr

namespace Attribute

/-- The content between the delimiters of the attribute's arguments, and the end of it. -/
def args (a : Attribute) : Except SyntaxError (List Token × Span) :=
  match a.input with
  | .none => .error ⟨.noArguments a.path.val.text, a.path.span⟩
  | .value eq => .error ⟨.valueArguments a.path.val.text, eq⟩
  | .args content close => .ok (content, close)

end Attribute

end RowDerive
