import RowDerive.Grammar.Pattern

/-!
# The grammar of branches and loops

Expressions that end with a block of their own. Before such a block a brace after a path opens the block
and no record.
-/

namespace RowDerive.Grammar

open RowDerive.Parser

/-! ## Branches -/

/-- A branch: a condition, a block, and what else is done. -/
def ifExpr (ρ : Rules) : Nat → Parser (List Token)
  | 0 => failTooDeep
  | fuel + 1 => do
    let if_ ← keyword "if"
    let cond ← ρ.condition
    let yes ← ρ.block false
    let lead := [if_] ++ cond ++ [yes]
    if ← peek (Look.keyword "else") then
      let else_ ← keyword "else"
      if ← peek (Look.keyword "if") then return lead ++ [else_] ++ (← ifExpr ρ fuel)
      else if ← peek (Look.group .brace) then return lead ++ [else_, ← ρ.block false]
      else failNoneOf [("`if`", Look.keyword "if"), ("curly braces", Look.group .brace)]
    else return lead

/-- One arm of a `match`, with the comma after it. -/
def arm (ρ : Rules) : Parser (List Token) := do
  let attrs := (← attributeTokens ρ).flatten
  let p ← alternatives ρ
  let guard ← optionally (Look.keyword "if") do return (← keyword "if") :: (← ρ.whole)
  let arrow ← op "=>"
  let e ← ρ.standalone
  let comma ← if e.isBlock || (← atEnd) then op? "," else op ","
  return attrs ++ p.tokens ++ guard.getD [] ++ arrow ++ e.tokens ++ comma

/-- A `match` with its arms. -/
def matchExpr (ρ : Rules) : Parser (List Token) := do
  let match_ ← keyword "match"
  let e ← ρ.condition
  let arms ← inGroup .brace do
    let attrs ← innerAttributes ρ
    return attrs ++ (← manyWhile (!·.isEmpty) (arm ρ) (← ahead)).flatten
  return [match_] ++ e ++ [Token.enclose .brace arms]

/-! ## Loops and labels -/

/-- Whether a loop is ahead. -/
def loopAhead : Look := Look.anyKeyword ["while", "for", "loop"]

/-- A loop without its label. -/
def loopExpr (ρ : Rules) : Parser (List Token) := do
  if ← peek (Look.keyword "while") then
    let while_ ← keyword "while"
    let cond ← ρ.condition
    return [while_] ++ cond ++ [← ρ.block true]
  else if ← peek (Look.keyword "for") then
    let for_ ← keyword "for"
    let p ← alternatives ρ
    let in_ ← keyword "in"
    let e ← ρ.condition
    return [for_] ++ p.tokens ++ [in_] ++ e ++ [← ρ.block true]
  else
    let loop_ ← keyword "loop"
    return [loop_, ← ρ.block true]

/-- A loop or a block behind its label. -/
def labelled (ρ : Rules) : Parser (List Token) := do
  let x ← lifetime
  let colon ← op ":"
  let lead := Token.tick x :: colon
  if ← peek loopAhead then return lead ++ (← loopExpr ρ)
  else if ← peek (Look.group .brace) then return lead ++ [← ρ.block true]
  else failExpected "loop or block expression"

/-- A block behind the keyword `k`. -/
def keywordBlock (ρ : Rules) (k : String) (inner : Bool) : Parser (List Token) := do
  let x ← keyword k
  return [x, ← ρ.block inner]

/-- A block that is run later. -/
def asyncBlock (ρ : Rules) : Parser (List Token) := do
  let async ← keyword "async"
  let move ← keyword? "move"
  return [async] ++ move ++ [← ρ.block false]

end RowDerive.Grammar
