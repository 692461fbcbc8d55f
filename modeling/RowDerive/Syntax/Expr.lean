import RowDerive.Syntax.Ty

/-!
# Expressions and patterns

Nothing is derived from an expression or a pattern, so of either its tokens are kept, with as much of
its form as what follows it depends on: whether a statement that is one ends without a semicolon,
whether a comparison may be compared again, whether a path may go on.
-/

namespace RowDerive

/-- How tight an operator binds its operands, from loose to tight. -/
inductive Precedence where
  | lowest
  | assign
  | range
  | or
  | and
  | binding
  | compare
  | bitOr
  | bitXor
  | bitAnd
  | shift
  | sum
  | product
  | cast
deriving DecidableEq, Repr, Ord

namespace Precedence

instance : LT Precedence := ltOfOrd
instance : LE Precedence := leOfOrd

/-- Operators between operands, the longer before those that begin them. -/
def operators : List (String × Precedence) :=
  [("+=", assign), ("-=", assign), ("*=", assign), ("/=", assign), ("%=", assign), ("^=", assign),
   ("&=", assign), ("|=", assign), ("<<=", assign), (">>=", assign), ("&&", and), ("||", or),
   ("<<", shift), (">>", shift), ("==", compare), ("<=", compare), ("!=", compare), (">=", compare),
   ("+", sum), ("-", sum), ("*", product), ("/", product), ("%", product), ("^", bitXor),
   ("&", bitAnd), ("|", bitOr), ("<", compare), (">", compare)]

end Precedence

/-- The form of an expression, as far as it matters to what follows. -/
inductive ExprForm where
  /-- A block, or a branch or loop that ends with one. -/
  | block
  /-- A macro call, in braces or not. -/
  | call (braced : Bool)
  /-- A range, and the place of its dots. -/
  | range (dots : Span)
  /-- Operands with an operator between them, which `compares` them or not; `asWritten` if the leftmost
  operand is written as it stood in the source. -/
  | operation (compares asWritten : Bool)
  /-- A path, as the type of its name. -/
  | path (p : Ty)
  /-- An invisible group, around a block or something else. -/
  | grouped (block : Bool)
  /-- Not taken apart, but written as it stood in the source. -/
  | asWritten
  | other
deriving DecidableEq, Repr

/-- An expression as read. -/
structure Expr where
  form : ExprForm
  tokens : List Token
deriving DecidableEq, Repr

namespace Expr

/-- An expression that may be followed by anything. -/
def plain (ts : List Token) : Expr := ⟨.other, ts⟩

/-- Whether the leftmost operand is written as it stood in the source. -/
def startsAsWritten (e : Expr) : Bool :=
  match e.form with
  | .asWritten => true
  | .operation _ asWritten => asWritten
  | _ => false

/-- The expression behind attributes, which belong to its leftmost operand. One that is written as it
stood takes none. -/
def withAttrs (attrs : List Token) (e : Expr) : Expr :=
  if e.startsAsWritten then e
  else
    match e.form with
    | .path _ => if attrs.isEmpty then e else plain (attrs ++ e.tokens)
    | form => ⟨form, attrs ++ e.tokens⟩

/-- The expression as the left operand of an operator, of which, with what follows it, the tokens are
`ts`. -/
def joined (compares : Bool) (ts : List Token) (e : Expr) : Expr :=
  ⟨.operation compares e.startsAsWritten, e.tokens ++ ts⟩

/-- Whether the outermost operator compares its operands. -/
def isComparison (e : Expr) : Bool :=
  match e.form with
  | .operation compares _ => compares
  | _ => false

/-- Whether the expression ends with its block, so that nothing has to part it from what follows. -/
def isBlock (e : Expr) : Bool := e.form = .block

def isRange (e : Expr) : Bool :=
  match e.form with
  | .range _ => true
  | _ => false

/-- The expression in an invisible group. -/
def inGroup (e : Expr) : Expr :=
  ⟨.grouped (e.form = .block || e.form = .grouped true), [Token.enclose .invisible e.tokens]⟩

/-- Whether a statement that is the expression takes the operators after it. -/
def goesOn (e : Expr) : Bool := e.form ≠ .block && e.form ≠ .grouped true

/-- Whether the expression has to be parted from the statement after it. -/
def needsSemicolon (e : Expr) : Bool := e.form ≠ .block && e.form ≠ .call true

/-- Whether the last token is a block or record in braces. -/
def endsInBrace (e : Expr) : Bool :=
  match e.tokens.getLast? with
  | some (.group .brace _ _ _) => true
  | _ => false

end Expr

/-- The form of a pattern, as far as it matters to what encloses it. -/
inductive PatternForm where
  /-- Dots for what else there is. -/
  | rest
  /-- A range that lacks its start or its end, and the place of its dots. -/
  | openRange (dots : Span)
  /-- Not taken apart, but written as it stood in the source. -/
  | asWritten
  | other
deriving DecidableEq, Repr

/-- A pattern as read. -/
structure Pattern where
  form : PatternForm
  tokens : List Token
deriving DecidableEq, Repr

namespace Pattern

/-- A pattern that may stand anywhere. -/
def plain (ts : List Token) : Pattern := ⟨.other, ts⟩

/-- The pattern behind attributes. One that is written as it stood takes none. -/
def withAttrs (attrs : List Token) (p : Pattern) : Pattern :=
  match p.form with
  | .asWritten => p
  | form => ⟨form, attrs ++ p.tokens⟩

end Pattern

end RowDerive
