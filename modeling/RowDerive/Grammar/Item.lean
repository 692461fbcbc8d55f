import RowDerive.Grammar.Depth

/-!
# The grammar of declared types

Records, enumerations and unions, behind their attributes and their visibility.
-/

namespace RowDerive

open RowDerive.Parser

namespace Grammar

/-- What a declared type begins with. -/
def kinds : List (String × Look) :=
  [("`struct`", Look.keyword "struct"), ("`enum`", Look.keyword "enum"),
   ("`union`", Look.keyword "union")]

/-- What follows the name of a declared type and its parameters: its predicates and its shape. The
keyword is at `span`. -/
def shape (ρ : Rules) (kind : String) (span : Span) : Parser (Option (List Token) × Shape) := do
  if kind = "struct" then
    let body ← recordBody ρ
    return (body.predicates, body.shape)
  else if kind = "enum" then return ((← variantsBody ρ).1, .noRecord span)
  else return ((← unionBody ρ).1, .noRecord span)

/-- The declaration of a type. -/
def item (ρ : Rules) : Parser Item := do
  let attrs ← attributes ρ
  let vis ← visibility
  if !(← peek fun ts => kinds.any (·.2 ts)) then failNoneOf kinds
  let kind ← located word
  let x ← located name
  let params ← genericParams ρ
  let (preds, shape) ← shape ρ kind.val kind.span
  return ⟨attrs, vis, x, ⟨params, preds⟩, shape⟩

end Grammar

/-- The declaration that the tokens are, if they are one and nothing else. -/
def Item.ofTokens (ts : List Token) : Except SyntaxError Item :=
  runAll (Grammar.item (Grammar.rulesFor ts)) ts .nowhere

end RowDerive
