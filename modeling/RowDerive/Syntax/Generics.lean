import RowDerive.Syntax.Ty

/-!
# Generics

The parameters that a declaration takes in angle brackets, and the predicates of its `where`. They are
written in three ways: as declared, on the `impl` of the declared type, and as its arguments. In each,
lifetimes come first.
-/

namespace RowDerive

open RowDerive.Parser (Listed)

/-- A parameter in angle brackets. Its bounds are there if a colon is, even if none follows. -/
inductive GenericParam where
  | lifetime (attrs : List (List Token)) (name : String) (bounds : Option (List Token))
  | type (attrs : List (List Token)) (name : String) (bounds : Option (List Token))
    (default : Option Ty)
  | const (attrs : List (List Token)) (name : String) (ty : Ty) (default : Option (List Token))
deriving DecidableEq, Repr

namespace GenericParam

def isLifetime : GenericParam → Bool
  | lifetime .. => true
  | type .. | const .. => false

/-- Bounds after their colon; a colon alone is not written. -/
def boundTokens : Option (List Token) → List Token
  | none | some [] => []
  | some ts => Token.op ":" ++ ts

/-- A default after its `=`. -/
def defaultTokens : Option (List Token) → List Token
  | none => []
  | some ts => Token.op "=" ++ ts

/-- The parameter without its default. -/
def tokens : GenericParam → List Token
  | lifetime attrs x bounds => attrs.flatten ++ [Token.tick x] ++ boundTokens bounds
  | type attrs x bounds _ => attrs.flatten ++ [Token.word x] ++ boundTokens bounds
  | const attrs x ty _ =>
    attrs.flatten ++ [Token.word "const", Token.word x] ++ Token.op ":" ++ ty.tokens

/-- The parameter as declared. -/
def declared (p : GenericParam) : List Token :=
  match p with
  | lifetime .. => p.tokens
  | type _ _ _ default => p.tokens ++ defaultTokens (default.map Ty.tokens)
  | const _ _ _ default => p.tokens ++ defaultTokens default

/-- The parameter as an argument: its name. -/
def argument : GenericParam → List Token
  | lifetime _ x _ => [Token.tick x]
  | type _ x _ _ | const _ x _ _ => [Token.word x]

end GenericParam

/-- The generics of a declaration: parameters if there are angle brackets, and predicates if there
is a `where`. -/
structure Generics where
  params : Option (Listed GenericParam)
  predicates : Option (List Token)
deriving DecidableEq, Repr

namespace Generics

/-- The parameters. -/
def items (g : Generics) : List GenericParam :=
  match g.params with
  | none => []
  | some l => l.items

/-- The parameters, each written with `f`, in angle brackets. -/
def angled (f : GenericParam → List Token) (g : Generics) : List Token :=
  match g.params with
  | none | some ⟨[], _⟩ => []
  | some l => Token.op "<" ++ (l.bring GenericParam.isLifetime).tokens (Token.op ",") f ++ Token.op ">"

/-- The generics as declared. -/
def declared (g : Generics) : List Token := g.angled GenericParam.declared

/-- The parameters of the `impl` of the declared type. -/
def parameters (g : Generics) : List Token := g.angled GenericParam.tokens

/-- The arguments of the declared type. -/
def arguments (g : Generics) : List Token := g.angled GenericParam.argument

/-- The `where` with its predicates, if there are some. -/
def whereTokens (g : Generics) : List Token :=
  match g.predicates with
  | none | some [] => []
  | some ts => Token.word "where" :: ts

end Generics

end RowDerive
