import RowDerive.Syntax.Generics
import RowDerive.Grammar.Type

/-!
# The grammar of generics

Parameters in angle brackets and the predicates of a `where`. A `where` ends where a body, a value or
the end of the declaration may follow.
-/

namespace RowDerive.Grammar

open RowDerive.Parser

/-! ## Parameters -/

/-- The bounds after the colon of a parameter, if it has one. -/
def paramBounds (bounds : Parser (List Token)) : Parser (Option (List Token)) :=
  optionally (Look.op ":") do
    discard (op ":")
    bounds

/-- A parameter that is a lifetime. -/
def lifetimeParam (attrs : List (List Token)) : Parser GenericParam := do
  let x ← lifetime
  let done : Parser Bool := do return (← atEnd) || (← peek angleEnd)
  return .lifetime attrs x (← paramBounds (lifetimeBounds done))

/-- A parameter that is a type. -/
def typeParam (ρ : Rules) (attrs : List (List Token)) : Parser GenericParam := do
  let x ← name
  let xs ← paramBounds (bounds ρ (peek (Look.anyOp [",", ">", "="])))
  let default ← optionally (Look.op "=") do
    discard (op "=")
    ρ.ty true
  return .type attrs x xs default

/-- A parameter that is a constant. -/
def constParam (ρ : Rules) (attrs : List (List Token)) : Parser GenericParam := do
  discard (keyword "const")
  let x ← name
  discard (op ":")
  let ty ← ρ.ty true
  let default ← optionally (Look.op "=") do
    discard (op "=")
    constArg ρ
  return .const attrs x ty default

/-- What a parameter may begin with. -/
def paramStarts : List (String × Look) :=
  [("lifetime", Look.lifetime), ("identifier", Look.name), ("`const`", Look.keyword "const")]

/-- What a parameter that a `for` binds may begin with. -/
def boundParamStarts : List (String × Look) :=
  [("identifier", Look.name), ("lifetime", Look.lifetime), ("`const`", Look.keyword "const")]

/-- A parameter in angle brackets. -/
def genericParam (ρ : Rules) : Parser GenericParam := do
  let attrs ← attributeTokens ρ
  if ← peek Look.lifetime then lifetimeParam attrs
  else if ← peek Look.name then typeParam ρ attrs
  else if ← peek (Look.keyword "const") then constParam ρ attrs
  else if ← peek (Look.keyword "_") then return .type attrs (← word) none none
  else failNoneOf paramStarts

/-- A parameter that a `for` binds, as its tokens. -/
def boundParam (ρ : Rules) : Parser (List Token) := do
  let attrs ← attributeTokens ρ
  if ← peek Look.name then return (← typeParam ρ attrs).declared
  else if ← peek Look.lifetime then return (← lifetimeParam attrs).declared
  else if ← peek (Look.keyword "const") then return (← constParam ρ attrs).declared
  else failNoneOf boundParamStarts

/-- Parameters in angle brackets, if there are brackets. -/
def genericParams (ρ : Rules) : Parser (Option (Listed GenericParam)) :=
  optionally (Look.op "<") do
    discard (op "<")
    let params ← angleList (genericParam ρ)
    discard (op ">")
    return params

/-- Whether a `<` ahead opens a list of parameters rather than a path with a qualified self. -/
def paramsAhead : Look := fun ts =>
  let afterName : Look := fun ts =>
    [">", ",", "="].any (fun s => Look.third (Look.op s) ts) ||
      (Look.third (Look.op ":") ts && !Look.third (Look.op "::") ts)
  Look.op "<" ts &&
    (Look.second (Look.op ">") ts || Look.second (Look.op "#") ts ||
      ((Look.second Look.lifetime ts || Look.second Look.name ts) && afterName ts) ||
      Look.second (Look.keyword "const") ts)

/-! ## Predicates -/

/-- Whether the predicates of a `where` end here. -/
def whereEnd : Parser Bool := do
  return (← atEnd) || (← peek fun ts =>
    Look.group .brace ts || Look.anyOp [",", ";", "="] ts || Look.colon ts)

/-- Whether the bounds on a lifetime in a `where` end here. -/
def whereLifetimeEnd : Parser Bool := do return (← whereEnd) || (← peek (Look.op ":"))

/-- One predicate of a `where`. -/
def predicate (ρ : Rules) : Parser (List Token) := do
  if ← peek fun ts => Look.lifetime ts && Look.second (Look.op ":") ts then
    let x ← lifetime
    let colon ← op ":"
    return [Token.tick x] ++ colon ++ (← lifetimeBounds whereLifetimeEnd)
  else
    let lifetimes ← binder? ρ
    let t ← ρ.ty true
    let colon ← op ":"
    return lifetimes.getD [] ++ t.tokens ++ colon ++ (← bounds ρ whereEnd)

/-- Predicates, each with the comma after it. -/
def predicates (ρ : Rules) : Nat → Parser (List Token)
  | 0 => failTooDeep
  | fuel + 1 => do
    if ← whereEnd then return []
    let p ← predicate ρ
    if ← peek (Look.op ",") then
      let comma ← op ","
      return p ++ comma ++ (← predicates ρ fuel)
    else return p

/-- The predicates of a `where`, if there is one. A `where` takes no parameters. -/
def whereClause (ρ : Rules) : Parser (Option (List Token)) :=
  optionally (Look.keyword "where") do
    discard (keyword "where")
    if ← peek paramsAhead then failHere .whereParameters
    predicates ρ (← ahead)

end RowDerive.Grammar
