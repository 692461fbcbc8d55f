import RowDerive.Syntax.Item
import RowDerive.Grammar.Signature

/-!
# The grammar of fields and variants

What a declared type is made of. The `where` stands before a body in braces and after fields in
parentheses.
-/

namespace RowDerive.Grammar

open RowDerive.Parser

/-! ## Fields -/

/-- A type in its place. An invisible group that is the whole type counts to it. -/
def locatedType (ρ : Rules) : Parser (Located Ty) := do
  let c ← get
  let t ← ρ.ty true
  let opened := match t with
    | .group _ => false
    | _ => true
  return ⟨t, startOf opened c, (← get).last.stop⟩

/-- The name of a field: an identifier, or `_`. -/
def fieldIdent : Parser Name := do
  let x ← if ← peek (Look.keyword "_") then word else name
  match Name.ofText? x with
  | some x => return x
  | none => failExpected "identifier"

/-- Whether a record without a name is ahead in the place of a type. -/
def namelessAhead : Look := fun ts =>
  Look.keyword "struct" ts ||
    (Look.keyword "union" ts && Look.second (Look.group .brace) ts)

/-- A field with its name. Only the field `_` may have a record without a name as its type, whose fields
are read by `inner`. -/
def namedField (ρ : Rules) (inner : Parser (Listed Field)) : Parser Field := do
  let attrs ← attributes ρ
  let vis ← visibility
  let anonymous ← peek (Look.keyword "_")
  let x ← located fieldIdent
  discard (op ":")
  if anonymous && (← peek namelessAhead) then
    let ty ← located (asWritten do
      discard word
      discard (inGroup .brace inner))
    return ⟨attrs, vis, x, ⟨.other ty.val, ty.span⟩⟩
  else return ⟨attrs, vis, x, ← locatedType ρ⟩

/-- Named fields; records without a name may lie `depth` deep in them. -/
def namedFields (ρ : Rules) : (depth : Nat) → Parser (Listed Field)
  | 0 => failTooDeep
  | depth + 1 => commaList (namedField ρ (namedFields ρ depth))

/-- Named fields in braces. -/
def bracedFields (ρ : Rules) : Parser (Listed Field) := do
  let depth ← ahead
  inGroup .brace (namedFields ρ depth)

/-- A field by position, as its tokens. -/
def positionalField (ρ : Rules) : Parser (List Token) := do
  let attrs ← attributeTokens ρ
  let vis ← visibility
  return attrs.flatten ++ vis ++ (← ρ.ty true).tokens

/-- Fields by position, in parentheses. -/
def positionalFields (ρ : Rules) : Parser (Listed (List Token)) :=
  inGroup .paren (commaList (positionalField ρ))

/-- Named fields as one token. -/
def bracedTokens (fields : Listed Field) : Token :=
  Token.enclose .brace (fields.tokens (Token.op ",") Field.tokens)

/-- Fields by position as one token. -/
def positionalTokens (fields : Listed (List Token)) : Token :=
  Token.parens (fields.tokens (Token.op ",") id)

/-! ## Bodies -/

/-- What follows the parameters of a record: its `where`, its shape, and the tokens of both. -/
structure RecordBody where
  predicates : Option (List Token)
  shape : Shape
  tokens : List Token

/-- The `where` ahead, if its predicates may stand here. -/
def whereTokens (preds : Option (List Token)) : List Token := Generics.whereTokens ⟨none, preds⟩

/-- A record with fields by position. -/
def positionalBody (ρ : Rules) : Parser RecordBody := do
  let fields ← located (positionalFields ρ)
  let preds ← whereClause ρ
  let ends := [("`;`", Look.op ";")]
  let starts := if preds.isNone then ("`where`", Look.keyword "where") :: ends else ends
  if ← peek (Look.op ";") then
    let semi ← op ";"
    return ⟨preds, .positional fields.span,
      [positionalTokens fields.val] ++ whereTokens preds ++ semi⟩
  else failNoneOf starts

/-- What follows the parameters of a record. -/
def recordBody (ρ : Rules) : Parser RecordBody := do
  let preds ← whereClause ρ
  if preds.isNone && (← peek (Look.group .paren)) then positionalBody ρ
  else if ← peek (Look.group .brace) then
    let fields ← bracedFields ρ
    return ⟨preds, .named fields.items, whereTokens preds ++ [bracedTokens fields]⟩
  else if ← peek (Look.op ";") then
    let semi ← op ";"
    return ⟨preds, .unit, whereTokens preds ++ semi⟩
  else
    let ends := [("curly braces", Look.group .brace), ("`;`", Look.op ";")]
    failNoneOf (if preds.isSome then ends
      else [("`where`", Look.keyword "where"), ("parentheses", Look.group .paren)] ++ ends)

/-- A variant of an enumeration, as its tokens. A visibility before it is not kept. -/
def variant (ρ : Rules) : Parser (List Token) := do
  let attrs ← attributeTokens ρ
  discard visibility
  let x ← name
  let fields ←
    if ← peek (Look.group .brace) then pure [bracedTokens (← bracedFields ρ)]
    else if ← peek (Look.group .paren) then pure [positionalTokens (← positionalFields ρ)]
    else pure []
  let value ← optionally (Look.op "=") do return (← op "=") ++ (← ρ.whole)
  return attrs.flatten ++ [Token.word x] ++ fields ++ value.getD []

/-- What follows the parameters of an enumeration: its predicates, and its tokens. -/
def variantsBody (ρ : Rules) : Parser (Option (List Token) × List Token) := do
  let preds ← whereClause ρ
  let vs ← inGroup .brace (commaList (variant ρ))
  return (preds, whereTokens preds ++
    [Token.enclose .brace (vs.tokens (Token.op ",") id)])

/-- What follows the parameters of a union: its predicates, and its tokens. -/
def unionBody (ρ : Rules) : Parser (Option (List Token) × List Token) := do
  let preds ← whereClause ρ
  return (preds, whereTokens preds ++ [bracedTokens (← bracedFields ρ)])

end RowDerive.Grammar
