import RowDerive.Grammar.Field

/-!
# The grammar of members

What stands between the braces of a trait, of an implementation and of a foreign block: functions,
constants, variables, types and macro calls. A member that is well formed but means nothing where it
stands is kept as it stood in the source.
-/

namespace RowDerive.Grammar

open RowDerive.Parser

/-! ## Parts -/

/-- What is read, or that it has to be kept as it stood in the source. -/
abbrev Written := Option (List Token)

/-- The tokens of what was read since `c`, behind its attributes. -/
def written (c : Cursor) (attrs : List Token) : Written → Parser (List Token)
  | some ts => return attrs ++ ts
  | none => takenSince c

/-- Whether a function is ahead. -/
def functionAhead (foreign : Bool) : Parser Bool := do
  return (← peek (Look.keyword "fn")) || (← signatureAhead foreign)

/-- What stands in braces, each read by `one`, behind attributes of the whole. -/
def bracedItems (ρ : Rules) (one : Parser (List Token)) : Parser Token := do
  let ts ← inGroup .brace do
    let attrs ← innerAttributes ρ
    return attrs ++ (← manyWhile (!·.isEmpty) one (← ahead)).flatten
  return Token.enclose .brace ts

/-- Bounds with a `+` between any two, until `done` holds ahead. -/
def boundsUntil (ρ : Rules) (done : Look) : Parser (List Token) := do
  let one : Parser (List Token) := do return (← bound ρ false true).tokens
  return (← listUntil "+" (peek done) one (← ahead)).tokens (Token.op "+") id

/-- The value after `=`, if there is one. -/
def value? (ρ : Rules) : Parser (Option (List Token)) :=
  optionally (Look.op "=") do return (← op "=") ++ (← ρ.whole)

/-! ## Macro calls -/

/-- What a macro call begins with. -/
def callStarts : List (String × Look) :=
  [("identifier", Look.name), ("`self`", Look.keyword "self"), ("`super`", Look.keyword "super"),
   ("`crate`", Look.keyword "crate"), ("`::`", Look.op "::")]

/-- Whether a macro call is ahead where nothing else can be. -/
def macroAhead : Look := fun ts => callStarts.any (·.2 ts)

/-- A macro call as a declaration, which ends with a semicolon unless it is in braces. If `named`, a
name may stand before what is between its delimiters. -/
def macroItem (named : Bool) : Parser (List Token) := do
  let p ← plainPath
  let bang ← op "!"
  let x ← optionally (fun ts => named && (Look.name ts || Look.keyword "try" ts)) word
  let (d, content, _) ← anyGroup
  let lead := p.tokens ++ bang ++ (x.map Token.word).toList ++
    [Token.enclose d (content.map Token.erase)]
  if d = .brace then return lead else return lead ++ (← op ";")

/-! ## Constants -/

/-- A constant as read. -/
structure ConstantRead where
  tokens : List Token
  hasValue : Bool
  /-- Whether it has parameters or a `where`. -/
  isGeneric : Bool

/-- What the name of a constant may begin with. -/
def constantNames : List (String × Look) :=
  [("identifier", Look.name), ("`_`", Look.keyword "_")]

/-- A constant after its keyword. -/
def constant (ρ : Rules) : Parser ConstantRead := do
  let x ← if ← peek fun ts => constantNames.any (·.2 ts) then word else failNoneOf constantNames
  let params ← genericParams ρ
  let colon ← op ":"
  let t ← ρ.ty true
  let value ← value? ρ
  let preds ← whereClause ρ
  let semi ← op ";"
  let ts := [Token.word "const", Token.word x] ++ colon ++ t.tokens ++ value.getD [] ++ semi
  return ⟨ts, value.isSome, params.isSome || preds.isSome⟩

/-! ## Named types -/

/-- Where the `where` of a named type stands: before its definition, or after. -/
inductive WherePlace where
  | before
  | after
  | either
deriving DecidableEq

/-- A named type as read. -/
structure AliasRead where
  /-- The name with its parameters. -/
  head : List Token
  /-- The bounds, if a colon is there. -/
  bounds : Option (List Token)
  /-- The definition with its `=`. -/
  definition : Option (List Token)
  predicates : Option (List Token)

/-- A named type, from its keyword to its semicolon. -/
def namedType (ρ : Rules) (place : WherePlace) : Parser AliasRead := do
  let type ← keyword "type"
  let x ← name
  let params ← genericParams ρ
  let bounds ← optionally (Look.op ":") do
    discard (op ":")
    boundsUntil ρ fun ts => Look.keyword "where" ts || Look.anyOp ["=", ";"] ts
  let before ← if place = .after then pure none else whereClause ρ
  let definition ← optionally (Look.op "=") do
    let eq ← op "="
    return eq ++ (← ρ.ty true).tokens
  let after ← if place = .before || before.isSome then pure none else whereClause ρ
  discard (op ";")
  let head := [type, Token.word x] ++ Generics.declared ⟨params, none⟩
  return ⟨head, bounds, definition, before.or after⟩

/-! ## Members of a trait -/

/-- A function of a trait, with a body or without. -/
def traitFunction (ρ : Rules) : Parser (List Token) := do
  let sig ← signature ρ
  if ← peek (Look.group .brace) then return sig.val.tokens ++ [← ρ.block true]
  else if ← peek (Look.op ";") then return sig.val.tokens ++ (← op ";")
  else failNoneOf [("curly braces", Look.group .brace), ("`;`", Look.op ";")]

/-- What follows `const` in a trait, other than the name of a constant. -/
def functionMarks : List (String × Look) :=
  [("`async`", Look.keyword "async"), ("`unsafe`", Look.keyword "unsafe"),
   ("`extern`", Look.keyword "extern"), ("`fn`", Look.keyword "fn")]

/-- A constant of a trait, or a function with the keyword `const`. -/
def traitConstant (ρ : Rules) : Parser Written := do
  let c ← get
  discard (keyword "const")
  if ← peek fun ts => constantNames.any (·.2 ts) then
    let x ← constant ρ
    return if x.isGeneric then none else some x.tokens
  else if ← peek fun ts => functionMarks.any (·.2 ts) then
    set c
    return some (← traitFunction ρ)
  else failNoneOf (constantNames ++ functionMarks)

/-- A type of a trait. -/
def traitAlias (ρ : Rules) : Parser (List Token) := do
  let x ← namedType ρ .after
  return x.head ++ GenericParam.boundTokens x.bounds ++ x.definition.getD [] ++
    whereTokens x.predicates ++ Token.op ";"

/-- A member of a trait. One with a visibility or a `default` is kept as it stood in the source. -/
def traitItem (ρ : Rules) : Parser (List Token) := do
  let c ← get
  let attrs := (← attributeTokens ρ).flatten
  let marks := (← visibility) ++ (← keyword? "default")
  let read : Written ←
    if ← functionAhead false then some <$> traitFunction ρ
    else if ← peek (Look.keyword "const") then traitConstant ρ
    else if ← peek (Look.keyword "type") then some <$> traitAlias ρ
    else if marks.isEmpty && (← peek macroAhead) then some <$> macroItem false
    else failNoneOf ([("`fn`", Look.keyword "fn"), ("`const`", Look.keyword "const"),
      ("`type`", Look.keyword "type")] ++ if marks.isEmpty then callStarts else [])
  written c attrs (if marks.isEmpty then read else none)

/-! ## Members of an implementation -/

/-- A function with its body. One without is kept as it stood in the source. -/
def function (ρ : Rules) : Parser Written := do
  let sig ← signature ρ
  if ← peek (Look.op ";") then
    discard (op ";")
    return none
  else return some (sig.val.tokens ++ [← ρ.block true])

/-- A constant with its value. One without, or with parameters, is kept as it stood in the source. -/
def valuedConstant (ρ : Rules) : Parser Written := do
  discard (keyword "const")
  let x ← constant ρ
  return if x.hasValue && !x.isGeneric then some x.tokens else none

/-- A named type of an implementation. One without a definition, or with bounds, is kept as it stood in
the source. -/
def implAlias (ρ : Rules) : Parser Written := do
  let x ← namedType ρ .after
  match x.bounds, x.definition with
  | none, some ts => return some (x.head ++ ts ++ whereTokens x.predicates ++ Token.op ";")
  | _, _ => return none

/-- A member of an implementation. -/
def implItem (ρ : Rules) : Parser (List Token) := do
  let c ← get
  let attrs := (← attributeTokens ρ).flatten
  let vis ← visibility
  let default ← optionally
    (fun ts => Look.keyword "default" ts && !Look.second (Look.op "!") ts) (keyword "default")
  let marks := vis ++ default.toList
  let read : Written ←
    if ← functionAhead false then function ρ
    else if ← peek (Look.keyword "const") then valuedConstant ρ
    else if ← peek (Look.keyword "type") then implAlias ρ
    else if marks.isEmpty && (← peek macroAhead) then some <$> macroItem false
    else failNoneOf (
      (if default.isNone then [("`default`", Look.keyword "default")] else []) ++
      [("`fn`", Look.keyword "fn"), ("`const`", Look.keyword "const"),
       ("`type`", Look.keyword "type")] ++ if marks.isEmpty then callStarts else [])
  written c attrs (read.map (marks ++ ·))

/-! ## Members of a foreign block -/

/-- A foreign function. One with a body, or with the keyword `safe`, is kept as it stood in the
source. -/
def foreignFunction (ρ : Rules) : Parser Written := do
  let sig ← signatureWith ρ true
  let (isSafe, sig) := sig.val
  if ← peek (Look.group .brace) then
    discard (ρ.block true)
    return none
  else
    let semi ← op ";"
    return if isSafe then none else some (sig.tokens ++ semi)

/-- Whether a foreign variable is ahead. -/
def foreignStaticAhead : Look := fun ts =>
  Look.keyword "static" ts ||
    (Look.anyKeyword ["unsafe", "safe"] ts && Look.second (Look.keyword "static") ts)

/-- A foreign variable. One with a value, or marked as safe or unsafe, is kept as it stood in the
source. -/
def foreignStatic (ρ : Rules) : Parser Written := do
  let isUnsafe ← flag "unsafe"
  let isSafe ← if isUnsafe then pure false else flag "safe"
  let static ← keyword "static"
  let m ← keyword? "mut"
  let x ← name
  let colon ← op ":"
  let t ← ρ.ty true
  let value ← value? ρ
  let semi ← op ";"
  if isUnsafe || isSafe || value.isSome then return none
  else return some ([static] ++ m ++ [Token.word x] ++ colon ++ t.tokens ++ semi)

/-- A foreign type. -/
def foreignAlias (ρ : Rules) : Parser Written := do
  let x ← namedType ρ .either
  if x.bounds.isSome || x.definition.isSome then return none
  else return some (x.head ++ whereTokens x.predicates ++ Token.op ";")

/-- A member of a foreign block. -/
def foreignItem (ρ : Rules) : Parser (List Token) := do
  let c ← get
  let attrs := (← attributeTokens ρ).flatten
  let vis ← visibility
  let read : Written ←
    if ← functionAhead true then foreignFunction ρ
    else if ← peek foreignStaticAhead then foreignStatic ρ
    else if ← peek (Look.keyword "type") then foreignAlias ρ
    else if vis.isEmpty && (← peek macroAhead) then some <$> macroItem false
    else failNoneOf ([("`fn`", Look.keyword "fn"), ("`static`", Look.keyword "static"),
      ("`type`", Look.keyword "type")] ++ if vis.isEmpty then callStarts else [])
  written c attrs (read.map (vis ++ ·))

end RowDerive.Grammar
