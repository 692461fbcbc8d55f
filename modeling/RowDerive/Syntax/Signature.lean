import RowDerive.Syntax.Generics

/-!
# Method signatures

A signature is kept as far as the choice of a method looks into it: its qualifiers, its generics, which
parameters are receivers, and its result. Two signatures are equal if they are declared alike, wherever
they stand.
-/

namespace RowDerive

open RowDerive.Parser (Listed)

/-- A parameter of a method, by its tokens. -/
inductive FnParam where
  | receiver (tokens : List Token)
  | typed (tokens : List Token)
deriving DecidableEq, Repr

namespace FnParam

def isReceiver : FnParam → Bool
  | receiver _ => true
  | typed _ => false

def tokens : FnParam → List Token
  | receiver ts | typed ts => ts

end FnParam

/-- The signature of a method. -/
structure Signature where
  isConst : Bool
  isAsync : Bool
  isUnsafe : Bool
  /-- `extern` with its name, if it has one. -/
  abi : Option (List Token)
  name : String
  generics : Generics
  params : Listed FnParam
  /-- The dots that stand for further parameters. -/
  variadic : Option (List Token)
  result : Option Ty
deriving DecidableEq, Repr

namespace Signature

/-- The keyword `s` if `b`. -/
def flag (b : Bool) (s : String) : List Token := if b then [Token.word s] else []

/-- The parameters between their parentheses. -/
def paramTokens (sig : Signature) : Token :=
  Token.parens (sig.params.tokens (Token.op ",") FnParam.tokens ++ sig.variadic.getD [])

/-- The tokens of a signature. -/
def tokens (sig : Signature) : List Token :=
  flag sig.isConst "const" ++ flag sig.isAsync "async" ++ flag sig.isUnsafe "unsafe" ++
    sig.abi.getD [] ++ [Token.word "fn", Token.word sig.name] ++ sig.generics.declared ++
    [sig.paramTokens] ++ Ty.resultTokens sig.result ++ sig.generics.whereTokens

/-- The signature with the predicates of a `where` in the place of its own. -/
def withPredicates (sig : Signature) (preds : Option (List Token)) : Signature :=
  { sig with generics := { sig.generics with predicates := preds } }

end Signature

/-- A method without its body: attributes, visibility and signature. -/
structure Method where
  attrs : List (List Token)
  vis : List Token
  sig : Signature
deriving DecidableEq, Repr

namespace Method

def name (m : Method) : String := m.sig.name

/-- What stands before the body. -/
def tokens (m : Method) : List Token := m.attrs.flatten ++ m.vis ++ m.sig.tokens

end Method

end RowDerive
