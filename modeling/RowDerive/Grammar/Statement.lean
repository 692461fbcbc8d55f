import RowDerive.Grammar.Declaration
import RowDerive.Grammar.Expr

/-!
# The grammar of blocks

A block holds statements: bindings, declarations, macro calls and expressions. Where two statements
meet, the first has to end with a semicolon unless it ends with its block.
-/

namespace RowDerive.Grammar

open RowDerive.Parser

/-! ## Macro calls -/

/-- What the macro call ahead is, if there is one. -/
inductive CallAhead where
  /-- A call in braces that is a statement by itself. -/
  | statement
  /-- A call that declares a name. -/
  | declaration
  /-- No call, or one that an expression may begin with. -/
  | neither
deriving DecidableEq

/-- What the macro call ahead is, if there is one. A call in braces goes on with a point or a question
mark, and is then no statement by itself. -/
def callAhead? : Parser CallAhead := do
  let found ← foresee do
    discard plainPath
    let ts := (← get).rest
    if !Look.op "!" ts then return CallAhead.neither
    else if Look.second (fun ts => Look.name ts || Look.keyword "try" ts) ts then
      return .declaration
    else if Look.second (Look.group .brace) ts && !Look.third Look.dot ts &&
        !Look.third (Look.op "?") ts then
      return .statement
    else return .neither
  return found.getD .neither

/-- A macro call in braces. -/
def callStatement (attrs : List Token) : Parser (List Token) := do
  let p ← plainPath
  let (_, ts) ← macroArgs
  return attrs ++ p.tokens ++ ts ++ (← op? ";")

/-! ## Bindings -/

/-- The value of a binding, and what is done if its pattern does not match. -/
def initialValue (ρ : Rules) : Parser (List Token) := do
  let eq ← op "="
  let e ← ρ.expr true .lowest
  if !e.endsInBrace && (← peek (Look.keyword "else")) then
    let else_ ← keyword "else"
    return eq ++ e.tokens ++ [else_, ← ρ.block false]
  else return eq ++ e.tokens

/-- A binding. -/
def letStatement (ρ : Rules) (attrs : List Token) : Parser (List Token) := do
  let let_ ← keyword "let"
  let p ← ρ.pattern
  let t ← optionally (Look.op ":") do
    let colon ← op ":"
    return colon ++ (← ρ.ty true).tokens
  let value ← optionally (Look.op "=") (initialValue ρ)
  return attrs ++ [let_] ++ p.tokens ++ t.getD [] ++ value.getD [] ++ (← op ";")

/-! ## Declarations -/

/-- What follows `const` where it begins a closure or a block. -/
def constExprAhead : Look := fun ts =>
  Look.second (Look.group .brace) ts || Look.second (Look.keyword "static") ts ||
    (Look.second (Look.keyword "async") ts &&
      !Look.third (Look.anyKeyword ["unsafe", "extern", "fn"]) ts) ||
    Look.second (Look.keyword "move") ts || Look.second (Look.op "|") ts

/-- Whether a declaration is ahead and no expression that begins with the same word. -/
def itemAhead : Look := fun ts =>
  Look.anyKeyword ["pub", "extern", "use", "fn", "mod", "type", "struct", "enum", "trait", "impl",
    "macro"] ts ||
  (Look.keyword "crate" ts && !Look.second (Look.op "::") ts) ||
  (Look.keyword "static" ts && Look.second (fun ts => Look.keyword "mut" ts || Look.name ts) ts) ||
  (Look.keyword "const" ts && !constExprAhead ts) ||
  (Look.keyword "unsafe" ts && !Look.second (Look.group .brace) ts) ||
  (Look.keyword "async" ts && Look.second (Look.anyKeyword ["unsafe", "extern", "fn"]) ts) ||
  unionAhead ts || autoTraitAhead ts ||
  (Look.keyword "default" ts && Look.second (Look.anyKeyword ["unsafe", "impl"]) ts)

/-! ## Statements -/

/-- An expression as a statement, with whether it has to be parted from what follows. -/
def exprStatement (ρ : Rules) (attrs : List Token) : Parser (Bool × List Token) := do
  let e ← ρ.standalone
  let semi ← op? ";"
  return (semi.isEmpty && e.needsSemicolon, (e.withAttrs attrs).tokens ++ semi)

/-- A statement, with whether it has to be parted from what follows. -/
def statement (ρ : Rules) : Parser (Bool × List Token) := do
  let c ← get
  let attrs := (← attributeTokens ρ).flatten
  let call ← callAhead?
  if call = .statement then return (false, ← callStatement attrs)
  else if ← peek fun ts => Look.keyword "let" ts && !Look.invisible ts then
    return (false, ← letStatement ρ attrs)
  else if call = .declaration || (← peek itemAhead) then return (false, ← itemAfter ρ c attrs)
  else exprStatement ρ attrs

/-- Statements to the end of the tokens. -/
def statements (ρ : Rules) : Nat → Parser (List Token)
  | 0 => failTooDeep
  | fuel + 1 => do
    let semi ← op? ";"
    if !semi.isEmpty then return semi ++ (← statements ρ fuel)
    else if ← atEnd then return []
    else
      let (isOpen, ts) ← statement ρ
      if isOpen && !(← atEnd) then failHere .unfinishedStatement
      return ts ++ (← statements ρ fuel)

/-- Statements in braces, given the rules one level down. If `inner`, attributes of the whole may stand
first. -/
def block (ρ : Rules) (inner : Bool) : Parser Token := do
  let ts ← inGroup .brace do
    let attrs ← if inner then innerAttributes ρ else pure []
    return attrs ++ (← statements ρ (← ahead))
  return Token.enclose .brace ts

end RowDerive.Grammar
