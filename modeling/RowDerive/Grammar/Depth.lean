import RowDerive.Grammar.Statement

/-!
# Rules up to a depth

The rules of the grammar, each given those one level down. No rule goes down more than a few levels
before it takes a token, so the number of tokens bounds the depth that reading them needs.
-/

namespace RowDerive

open RowDerive.Parser

namespace Grammar

/-- The rules for what lies less than `depth` deep. -/
def rules : (depth : Nat) → Rules
  | 0 => noRules
  | depth + 1 =>
    let ρ := rules depth
    { ty := fun plus => type ρ plus true
      castTy := type ρ false false
      arg := arg ρ
      param := boundParam ρ
      pattern := pattern ρ
      expr := expr ρ
      operand := operand ρ
      standalone := standalone ρ
      block := block ρ
      item := anyItem ρ }

/-- The rules for all that `ts` can hold. -/
def rulesFor (ts : List Token) : Rules := rules (4 * Token.sizeList ts + 8)

end Grammar

/-- The type that the tokens are, if they are one and nothing else. -/
def Ty.ofTokens (ts : List Token) : Except SyntaxError Ty :=
  runAll ((Grammar.rulesFor ts).ty true) ts .nowhere

/-- The method with its body that the tokens are, as its tokens, if they are one and nothing else. -/
def Method.implementation? (ts : List Token) : Except SyntaxError (List Token) :=
  runAll (Grammar.implementation (Grammar.rulesFor ts)) ts .nowhere

end RowDerive
