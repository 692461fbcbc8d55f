import RowDerive.Grammar.Operand

/-!
# The grammar of expressions

Operators before, after and between operands. Those between operands bind by their precedence; two
comparisons do not stand side by side, nor does an operator follow a range.
-/

namespace RowDerive.Grammar

open RowDerive.Parser

/-! ## After an operand -/

/-- The parts of a text between its points. -/
def pointParts : List Char → List (List Char)
  | [] => [[]]
  | c :: cs =>
    if c = '.' then [] :: pointParts cs
    else
      match pointParts cs with
      | p :: ps => (c :: p) :: ps
      | [] => [[c]]

/-- The numbers of fields, the first perhaps with a sign, each behind a point. -/
def indexTokens (signed : Bool) : List (List Char) → Except SyntaxFault (List Token)
  | [] => .ok []
  | p :: ps => do
    let n ← fieldIndex signed (String.ofList p)
    return Token.op "." ++ [Token.lit (toString n)] ++ (← indexTokens false ps)

/-- The numbers of fields of fields, which read like a number with a point; returned is also whether a
point is left at the end. -/
def fieldIndices : Parser (Bool × List Token) := do
  let x ← number
  let (signed, text) := x.val
  let parts := pointParts text.toList
  let pointed := parts.getLast? == some []
  match indexTokens signed (if pointed then parts.dropLast else parts) with
  | .ok ts => return (pointed, ts)
  | .error fault => fail fault x.span

/-- A field or method after its point, with the arguments of a method. -/
def access (ρ : Rules) : Parser (List Token) := do
  if ← peek (Look.keyword "await") then return [← keyword "await"]
  match ← member with
  | .numbered n => return [(Member.numbered n).token]
  | .named x =>
    let turbofish ← optionally (Look.op "::") (segmentWith x ρ)
    if turbofish.isSome || (← peek (Look.group .paren)) then
      return (turbofish.getD (.bare x)).tokens ++ [← exprs ρ .paren]
    else return [Token.word x]

/-- A field or method, with the point before it. -/
def pointed (ρ : Rules) : Parser (List Token) := do
  let dot ← op "."
  if ← peek decimalAhead then
    let (more, ts) ← fieldIndices
    if more then return ts ++ Token.op "." ++ (← access ρ) else return ts
  else return dot ++ (← access ρ)

/-- Fields, methods, calls, indices and question marks after an operand. Of a range nothing but a call
or an index can be taken. -/
def trailers (ρ : Rules) : Nat → Expr → Parser Expr
  | 0, _ => failTooDeep
  | fuel + 1, e => do
    if ← peek (Look.group .paren) then
      trailers ρ fuel (.plain (e.tokens ++ [← exprs ρ .paren]))
    else if !e.isRange && (← peek Look.dot) then
      trailers ρ fuel (.plain (e.tokens ++ (← pointed ρ)))
    else if ← peek (Look.group .bracket) then
      let i ← inGroup .bracket ρ.whole
      trailers ρ fuel (.plain (e.tokens ++ [Token.enclose .bracket i]))
    else if !e.isRange && (← peek (Look.op "?")) then
      trailers ρ fuel (.plain (e.tokens ++ (← op "?")))
    else return e

/-- What follows an operand, as far as it belongs to it. -/
def trailed (ρ : Rules) (e : Expr) : Parser Expr := do trailers ρ (← ahead) e

/-! ## Before an operand -/

/-- The attributes of an expression. -/
def exprAttributes (ρ : Rules) : Parser (List Token) := do
  let cond : Look := fun ts => !Look.invisible ts && Look.op "#" ts
  let attrs ← manyWhile cond (oneAttribute ρ) (← ahead)
  return attrs.flatMap Attribute.tokens

/-- An operand with what follows it, behind its attributes, which begin at `c`. -/
def attributed (ρ : Rules) (c : Cursor) (attrs : List Token) (records : Bool) : Parser Expr := do
  let e ← trailed ρ (← atom ρ records)
  match e.form with
  | .asWritten => return ⟨.asWritten, ← takenSince c⟩
  | .range dots => if attrs.isEmpty then return e else fail .attributedRange dots
  | _ => return e.withAttrs attrs

/-- The sign of a reference, or of a raw pointer. -/
def referenceSign : Parser (List Token) := do
  let sign ← op "&"
  let rawAhead : Look := fun ts =>
    Look.keyword "raw" ts && Look.second (Look.anyKeyword ["mut", "const"]) ts
  if ← peek rawAhead then
    let raw ← keyword "raw"
    let m ← keyword? "mut"
    if m.isEmpty then return sign ++ [raw, ← keyword "const"] else return sign ++ [raw] ++ m
  else return sign ++ (← keyword? "mut")

/-- An operand with the signs before it and what follows it. -/
def signed (ρ : Rules) (records : Bool) : Nat → Parser Expr
  | 0 => failTooDeep
  | fuel + 1 => do
    let c ← get
    let attrs ← exprAttributes ρ
    if ← peek Look.invisible then attributed ρ c attrs records
    else if ← peek (Look.op "&") then
      let sign ← referenceSign
      return .plain (attrs ++ sign ++ (← signed ρ records fuel).tokens)
    else
      match ← ["*", "!", "-"].findM? fun s => peek (Look.op s) with
      | some s =>
        let sign ← op s
        return .plain (attrs ++ sign ++ (← signed ρ records fuel).tokens)
      | none => attributed ρ c attrs records

/-! ## Between operands -/

/-- The operator ahead. -/
def operatorAhead? : Parser (Option (String × Precedence)) := do
  let ts := (← get).rest
  return Precedence.operators.find? (Look.op ·.1 ts)

/-- Whether the `=` of an assignment is ahead. -/
def assignAhead : Look := Look.opBut "=" ["=>"]

/-- The precedence of what is ahead. -/
def precedenceAhead : Parser Precedence := do
  match ← operatorAhead? with
  | some (_, p) => return p
  | none =>
    if ← peek assignAhead then return .assign
    else if ← peek (Look.op "..") then return .range
    else if ← peek (Look.keyword "as") then return .cast
    else return .lowest

/-- What follows a cast and must not. -/
def castFollower? (ts : List Token) : Option String :=
  if Look.dot ts then
    if Look.second (Look.keyword "await") ts then some "`.await`"
    else if Look.second Look.name ts &&
        Look.third (fun ts => Look.group .paren ts || Look.op "::" ts) ts then
      some "a method call"
    else some "a field access"
  else if Look.op "?" ts then some "`?`"
  else if Look.group .bracket ts then some "indexing"
  else if Look.group .paren ts then some "a function call"
  else none

/-- The type that an operand is cast to. -/
def castTail (ρ : Rules) : Parser (List Token) := do
  let as ← keyword "as"
  let t ← ρ.castTy
  match castFollower? (← get).rest with
  | some what => failHere (.castFollowed what)
  | none => return as :: t.tokens

/-- Operators and operands after the operand `e`, as far as they bind at least like `base`. -/
def operations (ρ : Rules) (records : Bool) (base : Precedence) : Nat → Expr → Parser Expr
  | 0, _ => failTooDeep
  | fuel + 1, e => do
    if e.isRange then return e
    match ← operatorAhead? with
    | some (s, p) =>
      if p < base then return e
      else if p = .compare && e.isComparison then failHere .chainedComparison
      else
        let sign ← op s
        let e' ← ρ.operand records p
        operations ρ records base fuel (e.joined (p = .compare) (sign ++ e'.tokens))
    | none =>
      if base ≤ .assign && (← peek assignAhead) then
        let eq ← op "="
        let e' ← ρ.operand records .assign
        operations ρ records base fuel (e.joined false (eq ++ e'.tokens))
      else if base ≤ .range && (← peek (Look.op "..")) then
        operations ρ records base fuel (← range ρ records e.tokens)
      else if base ≤ .cast && (← peek (Look.keyword "as")) then
        operations ρ records base fuel (e.joined false (← castTail ρ))
      else return e

/-- An operand and the operators after it that bind at least like `base`, given the rules one level
down. -/
def expr (ρ : Rules) (records : Bool) (base : Precedence) : Parser Expr := do
  let e ← signed ρ records (← ahead)
  operations ρ records base (← ahead) e

/-- The operators after the operand `e` that bind tighter than one of the precedence `base`; assignments
bind to the right. An operator that cannot follow `e` ends them. -/
def tighter (ρ : Rules) (records : Bool) (base : Precedence) : Nat → Expr → Parser Expr
  | 0, _ => failTooDeep
  | fuel + 1, e => do
    let next ← precedenceAhead
    if base < next || (next = base && base = .assign) then
      let size ← ahead
      let e ← operations ρ records next size e
      if (← ahead) = size then return e else tighter ρ records base fuel e
    else return e

/-- What stands after an operator of the precedence `base`, given the rules one level down. -/
def operand (ρ : Rules) (records : Bool) (base : Precedence) : Parser Expr := do
  let e ← signed ρ records (← ahead)
  tighter ρ records base (← ahead) e

/-! ## Expressions that stand alone -/

/-- An expression that ends with its block, if one is ahead; else an operand. -/
def boundary (ρ : Rules) : Parser Expr := do
  if ← peek Look.invisible then
    let e ← groupExpr ρ true
    if e.goesOn then trailed ρ e else return e
  else if ← peek (Look.keyword "if") then return ⟨.block, ← ifExpr ρ (← ahead)⟩
  else if ← peek fun ts =>
      Look.anyKeyword ["while", "loop"] ts ||
        (Look.keyword "for" ts && !Look.second paramsAhead ts) then
    return ⟨.block, ← loopExpr ρ⟩
  else if ← peek (Look.keyword "match") then return ⟨.block, ← matchExpr ρ⟩
  else if ← peek fun ts => Look.keyword "try" ts && Look.second (Look.group .brace) ts then
    return ⟨.block, ← keywordBlock ρ "try" false⟩
  else if ← peek (Look.keyword "unsafe") then return ⟨.block, ← keywordBlock ρ "unsafe" true⟩
  else if ← peek fun ts => Look.keyword "const" ts && Look.second (Look.group .brace) ts then
    return ⟨.block, ← keywordBlock ρ "const" true⟩
  else if ← peek (Look.group .brace) then return ⟨.block, [← ρ.block true]⟩
  else if ← peek Look.lifetime then return ⟨.block, ← labelled ρ⟩
  else signed ρ true (← ahead)

/-- An expression that is a statement or the body of an arm, given the rules one level down: one that
ends with its block goes on only with a point or a question mark. -/
def standalone (ρ : Rules) : Parser Expr := do
  let attrs ← exprAttributes ρ
  let e ← boundary ρ
  if e.goesOn then operations ρ true .lowest (← ahead) (e.withAttrs attrs)
  else if ← peek fun ts => Look.dot ts || Look.op "?" ts then
    let e ← trailed ρ e
    operations ρ true .lowest (← ahead) (e.withAttrs attrs)
  else return e.withAttrs attrs

end RowDerive.Grammar
