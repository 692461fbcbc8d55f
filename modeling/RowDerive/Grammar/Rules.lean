import RowDerive.Syntax.Attribute
import RowDerive.Syntax.Expr

/-!
# Rules that nest

Types, expressions, patterns, blocks and declarations occur inside each other. A rule of the grammar
that needs one of them takes it as an argument, in a record of `Rules`; the knot is tied over a bound
on the depth, which the number of tokens gives. So each rule is a plain function and can be reasoned
about alone.
-/

namespace RowDerive

open RowDerive.Parser

/-- The rules that other rules refer to. -/
structure Rules where
  /-- A type; if `plus`, bounds may be added to it. -/
  ty : (plus : Bool) → Parser Ty
  /-- The type that an expression is cast to. -/
  castTy : Parser Ty
  /-- An argument in angle brackets. -/
  arg : Parser TyArg
  /-- A parameter that a `for` binds, as its tokens. -/
  param : Parser (List Token)
  /-- A pattern without alternatives. -/
  pattern : Parser Pattern
  /-- An operand and the operators after it that bind at least like `base`; if `records`, a path may
  begin a record in braces. -/
  expr : (records : Bool) → (base : Precedence) → Parser Expr
  /-- What stands after an operator of the precedence `base`. -/
  operand : (records : Bool) → (base : Precedence) → Parser Expr
  /-- An expression that ends with its block, if it has one. -/
  standalone : Parser Expr
  /-- Statements in braces, as one token; if `inner`, attributes of the whole may stand first. -/
  block : (inner : Bool) → Parser Token
  /-- A declaration, as its tokens. -/
  item : Parser (List Token)

namespace Rules

/-- An expression, as its tokens. -/
def whole (ρ : Rules) : Parser (List Token) := do return (← ρ.expr true .lowest).tokens

/-- An expression before a block, as its tokens. -/
def condition (ρ : Rules) : Parser (List Token) := do return (← ρ.expr false .lowest).tokens

end Rules

namespace Grammar

/-- The rules at depth zero, by which nothing can be read. -/
def noRules : Rules where
  ty _ := failTooDeep
  castTy := failTooDeep
  arg := failTooDeep
  param := failTooDeep
  pattern := failTooDeep
  expr _ _ := failTooDeep
  operand _ _ := failTooDeep
  standalone := failTooDeep
  block _ := failTooDeep
  item := failTooDeep

/-! ## Plain paths -/

/-- The keywords that may stand in a path. -/
def pathWordAhead : Look := fun ts =>
  Look.name ts || Look.anyKeyword ["super", "self", "Self", "crate"] ts

/-- Whether a path is ahead that does not begin with a type. -/
def pathAhead : Look := fun ts => pathWordAhead ts || Look.op "::" ts

/-- The names of a plain path after a `::`, each with the `::` before it. -/
def plainPathRest : Nat → Parser (List String)
  | 0 => failTooDeep
  | fuel + 1 => do
    if ← peek (Look.op "::") then
      discard (op "::")
      if ← peek pathWordAhead then
        let x ← word
        return x :: (← plainPathRest fuel)
      else failExpected "path segment after `::`"
    else return []

/-- A path of names alone. -/
def plainPath : Parser PlainPath := do
  let rooted := !(← op? "::").isEmpty
  if ← peek pathWordAhead then
    let x ← word
    return ⟨rooted, x :: (← plainPathRest (← ahead))⟩
  else
    return ⟨rooted, [← name]⟩

/-! ## Tokens that are not taken apart -/

/-- The tokens between any delimiters, with the delimiter and the place of the closing one. -/
def anyGroup : Parser (Delimiter × List Token × Span) := do
  let c ← get
  match c.rest with
  | .group d content _ closing :: rest =>
    if d = .invisible then failExpected "delimiter"
    else
      set { c with rest := rest, last := closing }
      return (d, content, closing)
  | _ => failExpected "delimiter"

/-- Whether the `!` of a macro call is ahead. -/
def bangAhead : Look := Look.opBut "!" ["!="]

/-- What follows the path of a macro call; returned is also whether it is in braces. -/
def macroArgs : Parser (Bool × List Token) := do
  let bang ← op "!"
  let (d, content, _) ← anyGroup
  return (d = .brace, bang ++ [Token.enclose d (content.map Token.erase)])

/-- A group whose content may be anything. -/
def anyContent (d : Delimiter) : Parser Unit :=
  discard (inGroup d do modify fun c => { c with rest := [] })

end Grammar

end RowDerive
