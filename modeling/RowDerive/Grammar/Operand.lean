import RowDerive.Grammar.Control

/-!
# The grammar of operands

What an expression is made of before any operator comes: literals, paths with what they begin, groups,
closures, jumps, and the expressions that end with a block.
-/

namespace RowDerive.Grammar

open RowDerive.Parser

/-! ## Groups -/

/-- Expressions between delimiters, parted by commas. -/
def exprs (ρ : Rules) (d : Delimiter) : Parser Token := do
  let es ← inGroup d (commaList ρ.whole)
  return Token.enclose d (es.tokens (Token.op ",") id)

/-- The content of an array: its elements, or one element and how often. -/
def arrayContent (ρ : Rules) : Parser (List Token) := do
  if ← atEnd then return []
  let e ← ρ.whole
  if ← atEnd then return e
  else if ← peek (Look.op ",") then
    let comma ← op ","
    return e ++ comma ++ (← commaList ρ.whole).tokens (Token.op ",") id
  else if ← peek (Look.op ";") then
    let semi ← op ";"
    return e ++ semi ++ (← ρ.whole)
  else failExpected "`,` or `;`"

/-- An array. -/
def array (ρ : Rules) : Parser Token := do
  return Token.enclose .bracket (← inGroup .bracket (arrayContent ρ))

/-! ## Paths -/

/-- A field of a record with its value, or a field alone. -/
def fieldValue (ρ : Rules) : Parser (List Token) := do
  let attrs := (← attributeTokens ρ).flatten
  let m ← member
  if (← peek (Look.op ":")) || !m.isNamed then
    let colon ← op ":"
    return attrs ++ m.token :: colon ++ (← ρ.whole)
  else return attrs ++ [m.token]

/-- The fields of a record, and what the other fields are taken from. -/
def fieldValues (ρ : Rules) : Nat → Parser (List Token)
  | 0 => failTooDeep
  | fuel + 1 => do
    if ← atEnd then return []
    else if ← peek (Look.op "..") then
      let dots ← op ".."
      if ← atEnd then return dots else return dots ++ (← ρ.whole)
    else
      let f ← fieldValue ρ
      if ← atEnd then return f
      let comma ← op ","
      return f ++ comma ++ (← fieldValues ρ fuel)

/-- A path as an expression, or the macro call or record that it begins. -/
def pathExprFrom (ρ : Rules) (records : Bool) (t : Ty) : Parser Expr := do
  if t.isPlainPath && (← peek bangAhead) then
    let (braced, ts) ← macroArgs
    return ⟨.call braced, t.tokens ++ ts⟩
  else if records && (← peek (Look.group .brace)) then
    let fields ← inGroup .brace do fieldValues ρ (← ahead)
    return .plain (t.tokens ++ [Token.enclose .brace fields])
  else return ⟨.path t, t.tokens⟩

/-- An expression that is an invisible group, or what a path in the group begins. -/
def groupExpr (ρ : Rules) (records : Bool) : Parser Expr := do
  let (e, left) ← openGroup .invisible (ρ.expr true .lowest)
  let e' ←
    match e.form with
    | .path t =>
      let t' := t.append (← segments true ρ)
      let e' ← pathExprFrom ρ records t'
      pure (if e'.form = .path t then e.inGroup else e')
    | _ => pure e.inGroup
  note left
  return e'

/-! ## Closures -/

/-- A parameter of a closure. -/
def closureParam (ρ : Rules) : Parser (List Token) := do
  let attrs := (← attributeTokens ρ).flatten
  let p ← ρ.pattern
  if ← peek (Look.op ":") then
    let colon ← op ":"
    return attrs ++ p.tokens ++ colon ++ (← ρ.ty true).tokens
  else return (p.withAttrs attrs).tokens

/-- What stands before the parameters of a closure. -/
def closureHead (ρ : Rules) : Parser (List Token) := do
  let lifetimes ← binder? ρ
  let isConst ← keyword? "const"
  let isStatic ← keyword? "static"
  let isAsync ← keyword? "async"
  let move ← keyword? "move"
  return lifetimes.getD [] ++ isConst ++ isStatic ++ isAsync ++ move

/-- A closure: its parameters, and its result type with a block or an expression alone. -/
def closure (ρ : Rules) (records : Bool) : Parser (List Token) := do
  let lead ← closureHead ρ
  let bar ← op "|"
  let params ← listUntil "," (peek (Look.op "|")) (closureParam ρ) (← ahead)
  let bar' ← op "|"
  let head := lead ++ bar ++ params.tokens (Token.op ",") id ++ bar'
  if ← peek (Look.op "->") then
    let out ← result ρ true
    return head ++ Ty.resultTokens out ++ [← ρ.block false]
  else return head ++ (← ρ.expr records .lowest).tokens

/-- Whether a closure is ahead. -/
def closureAhead : Look := fun ts =>
  Look.op "|" ts || Look.anyKeyword ["move", "static"] ts ||
    (Look.keyword "for" ts && Look.second paramsAhead ts) ||
    (Look.keyword "const" ts && !Look.second (Look.group .brace) ts) ||
    (Look.keyword "async" ts && Look.second (fun ts => Look.op "|" ts || Look.keyword "move" ts) ts)

/-! ## Jumps -/

/-- Whether an expression may begin here. -/
def valueAhead : Look := fun ts =>
  Look.word ts || Look.lifetime ts || Look.literal ts ||
    [.paren, .bracket, .brace].any (Look.group · ts) ||
    Look.opBut "!" ["!="] ts || Look.opBut "-" ["-=", "->"] ts || Look.opBut "*" ["*="] ts ||
    Look.opBut "|" ["|="] ts || Look.opBut "&" ["&="] ts || Look.opBut "<" ["<=", "<<="] ts ||
    Look.anyOp ["..", "::", "#"] ts

/-- A keyword with a value after it, if there is one. -/
def jump (ρ : Rules) (k : String) : Parser (List Token) := do
  let x ← keyword k
  let value ← optionally valueAhead ρ.whole
  return x :: value.getD []

/-- A `break` with its label and its value. A value with a label of its own has to be in parentheses. -/
def breakExpr (ρ : Rules) (records : Bool) : Parser (List Token) := do
  let x ← keyword "break"
  if ← peek fun ts => Look.lifetime ts && Look.second (Look.op ":") ts then
    let e ← located ρ.whole
    fail .labelledValue e.span
  else
    let label ← lifetime?
    let value ← optionally
      (fun ts => valueAhead ts && (records || !Look.group .brace ts)) ρ.whole
    return x :: label ++ value.getD []

/-! ## Ranges -/

/-- The dots of a range, two if the range may lack its end. -/
def limits : Parser (Located (Bool × List Token)) :=
  located do
    if ← peek (Look.op "..=") then return (false, ← op "..=")
    else if ← peek (Look.opBut ".." ["..."]) then return (true, ← op "..")
    else failNoneOf [("`..`", Look.op ".."), ("`..=`", Look.op "..=")]

/-- Whether a range that may lack its end does. -/
def rangeStops (records : Bool) : Look := fun ts =>
  ts.isEmpty || Look.dot ts || Look.keyword "as" ts || (!records && Look.group .brace ts) ||
    Look.anyOp [",", ";", "?", "=>", "=", "+", "/", "%", "^", ">", "<=", "!=", "-=", "*=", "&=", "|=",
      "<<="] ts

/-- The dots and the end of a range. -/
def range (ρ : Rules) (records : Bool) (start : List Token) : Parser Expr := do
  let dots ← limits
  let (isOpen, ts) := dots.val
  if isOpen && (← peek (rangeStops records)) then return ⟨.range dots.span, start ++ ts⟩
  else return ⟨.range dots.span, start ++ ts ++ (← ρ.operand records .range).tokens⟩

/-! ## All operands -/

/-- A pattern that an expression has to match. -/
def letExpr (ρ : Rules) (records : Bool) : Parser (List Token) := do
  let let_ ← keyword "let"
  let p ← alternatives ρ
  let eq ← op "="
  return [let_] ++ p.tokens ++ eq ++ (← ρ.expr records .compare).tokens

/-- Whether a path is ahead that may begin an expression. -/
def pathExprAhead : Look := fun ts =>
  pathAhead ts || Look.op "<" ts ||
    (Look.keyword "try" ts && Look.second (Look.anyOp ["!", "::"]) ts)

/-- Whether a block that is run later is ahead. -/
def asyncBlockAhead : Look := fun ts =>
  let brace := Look.group .brace
  Look.keyword "async" ts &&
    (Look.second brace ts || (Look.second (Look.keyword "move") ts && Look.third brace ts))

/-- An operand that begins with a keyword, or in no other way. -/
def keywordOperand (ρ : Rules) (records : Bool) : Parser Expr := do
  if ← peek (Look.keyword "break") then return .plain (← breakExpr ρ records)
  else if ← peek (Look.keyword "continue") then
    return .plain ((← keyword "continue") :: (← lifetime?))
  else if ← peek (Look.keyword "return") then return .plain (← jump ρ "return")
  else if ← peek (Look.keyword "become") then
    return ⟨.asWritten, ← asWritten do
      discard (keyword "become")
      ρ.whole⟩
  else if ← peek (Look.group .bracket) then return .plain [← array ρ]
  else if ← peek (Look.keyword "let") then return .plain (← letExpr ρ records)
  else if ← peek (Look.keyword "if") then return ⟨.block, ← ifExpr ρ (← ahead)⟩
  else if ← peek loopAhead then return ⟨.block, ← loopExpr ρ⟩
  else if ← peek (Look.keyword "match") then return ⟨.block, ← matchExpr ρ⟩
  else if ← peek (Look.keyword "yield") then return .plain (← jump ρ "yield")
  else if ← peek (Look.keyword "unsafe") then return ⟨.block, ← keywordBlock ρ "unsafe" true⟩
  else if ← peek (Look.keyword "const") then return ⟨.block, ← keywordBlock ρ "const" true⟩
  else if ← peek (Look.group .brace) then return ⟨.block, [← ρ.block true]⟩
  else if ← peek (Look.op "..") then range ρ records []
  else if ← peek (Look.keyword "_") then return .plain [← keyword "_"]
  else if ← peek Look.lifetime then return ⟨.block, ← labelled ρ⟩
  else failExpected "an expression"

/-- An operand without operators before or after it. -/
def atom (ρ : Rules) (records : Bool) : Parser Expr := do
  if ← peek Look.invisible then groupExpr ρ records
  else if ← peek Look.literal then return .plain (← literal)
  else if ← peek asyncBlockAhead then return .plain (← asyncBlock ρ)
  else if ← peek fun ts => Look.keyword "try" ts && Look.second (Look.group .brace) ts then
    return ⟨.block, ← keywordBlock ρ "try" false⟩
  else if ← peek closureAhead then return .plain (← closure ρ records)
  else if ← peek builtinAhead then return ⟨.asWritten, ← asWritten builtin⟩
  else if ← peek pathExprAhead then pathExprFrom ρ records (← anyPath true ρ)
  else if ← peek (Look.group .paren) then return .plain [← exprs ρ .paren]
  else keywordOperand ρ records

end RowDerive.Grammar
