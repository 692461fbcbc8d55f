import RowDerive.Grammar.Rules

/-!
# The grammar of attributes

A path, then arguments between any delimiters, a value after `=`, or nothing. An attribute stands before
what it describes, or with `!` at the start of it.
-/

namespace RowDerive

open RowDerive.Parser RowDerive.Grammar

namespace Grammar

/-- The value of an attribute: a literal that ends it, or an expression. -/
def attributeValue (ρ : Rules) : Parser (List Token) := do
  let c ← get
  let alone ← attempt literal
  match alone, ← atEnd with
  | some ts, true => return ts
  | _, _ =>
    set c
    if ← peek fun ts => Look.op "#" ts && Look.second (Look.group .bracket) ts then
      failHere .nestedAttribute
    else ρ.whole

/-- What follows the path of an attribute, and its tokens. -/
def attributeInput (ρ : Rules) : Parser (AttributeInput × List Token) := do
  if ← peek fun ts => [.paren, .bracket, .brace].any (Look.group · ts) then
    let (d, content, closing) ← anyGroup
    return (.args content closing, [Token.enclose d (content.map Token.erase)])
  else if ← peek (Look.opBut "=" ["==", "=>"]) then
    let sign ← located (op "=")
    return (.value sign.span, sign.val ++ (← attributeValue ρ))
  else return (.none, [])

/-- The path of an attribute. `unsafe` stands for a path by itself. -/
def attributePath : Parser PlainPath := do
  if ← peek (Look.keyword "unsafe") then
    discard word
    return ⟨false, ["unsafe"]⟩
  else plainPath

/-- What stands between the brackets of an attribute. -/
def attributeContent (ρ : Rules) :
    Parser (Located PlainPath × AttributeInput × List Token) := do
  let path ← located attributePath
  let (input, ts) ← attributeInput ρ
  return (path, input, [Token.enclose .bracket (path.val.tokens ++ ts)])

/-- One attribute, `#[...]`. -/
def oneAttribute (ρ : Rules) : Parser Attribute := do
  let whole ← located do
    discard (op "#")
    inGroup .bracket (attributeContent ρ)
  let (path, input, ts) := whole.val
  return ⟨path, input, whole.span, Token.op "#" ++ ts⟩

/-- All attributes ahead. -/
def attributes (ρ : Rules) : Parser (List Attribute) := do
  manyWhile (Look.op "#") (oneAttribute ρ) (← ahead)

/-- All attributes ahead, as tokens. -/
def attributeTokens (ρ : Rules) : Parser (List (List Token)) := do
  return (← attributes ρ).map Attribute.tokens

/-- One attribute of what it stands in, `#![...]`. -/
def innerAttribute (ρ : Rules) : Parser (List Token) := do
  let sign ← op "#"
  let bang ← op "!"
  let (_, _, ts) ← inGroup .bracket (attributeContent ρ)
  return sign ++ bang ++ ts

/-- All attributes ahead of what they stand in, as tokens. -/
def innerAttributes (ρ : Rules) : Parser (List Token) := do
  let cond : Look := fun ts => Look.op "#" ts && Look.second (Look.op "!") ts
  return (← manyWhile cond (innerAttribute ρ) (← ahead)).flatten

end Grammar

end RowDerive
