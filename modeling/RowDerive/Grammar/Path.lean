import RowDerive.Grammar.Attribute

/-!
# The grammar of paths

A path in an expression or a pattern takes arguments in angle brackets only after `::`, one in a type
also without. A path may begin with a type, its qualified self.
-/

namespace RowDerive.Grammar

open RowDerive.Parser

/-- Whether arguments in angle brackets are ahead. -/
def angleAhead (inExpr : Bool) : Look := fun ts =>
  (!inExpr && Look.opBut "<" ["<="] ts) || (Look.op "::" ts && Look.third (Look.op "<") ts)

/-- Arguments in angle brackets, and whether `::` stands before them. -/
def angleArgs (ρ : Rules) : Parser (Bool × Listed TyArg) := do
  let turbofish := !(← op? "::").isEmpty
  discard (op "<")
  let args ← angleList ρ.arg
  discard (op ">")
  return (turbofish, args)

/-- A segment of the name `x` with the arguments ahead. -/
def segmentWith (x : String) (ρ : Rules) : Parser Segment := do
  let (turbofish, args) ← angleArgs ρ
  return .generic x turbofish args.items args.trailing

/-- A segment of a path. -/
def segment (inExpr : Bool) (ρ : Rules) : Parser Segment := do
  if ← peek (Look.anyKeyword ["super", "self", "crate", "try"]) then return .bare (← word)
  else
    let x ← if ← peek (Look.keyword "Self") then word else name
    if ← peek (angleAhead inExpr) then segmentWith x ρ else return .bare x

/-- Whether a path goes on. -/
def segmentAhead : Look := fun ts => Look.op "::" ts && !Look.third (Look.group .paren) ts

/-- A segment after `::`. -/
def nextSegment (inExpr : Bool) (ρ : Rules) : Parser Segment := do
  discard (op "::")
  segment inExpr ρ

/-- The further segments of a path. -/
def segments (inExpr : Bool) (ρ : Rules) : Parser (List Segment) := do
  manyWhile segmentAhead (nextSegment inExpr ρ) (← ahead)

/-- A path without a qualified self. -/
def path (inExpr : Bool) (ρ : Rules) : Parser Path := do
  let rooted := !(← op? "::").isEmpty
  let s ← segment inExpr ρ
  return Path.append ⟨rooted, [], s⟩ (← segments inExpr ρ)

/-- A path with a qualified self, `<T as Trait>::Name`. -/
def qualifiedPath (inExpr : Bool) (ρ : Rules) : Parser Ty := do
  let lt ← op "<"
  let self ← ρ.ty true
  let as ← optionally (Look.keyword "as") do
    let as ← keyword "as"
    return as :: (← path false ρ).tokens
  let gt ← op ">"
  let s ← nextSegment inExpr ρ
  let ss ← manyWhile (Look.op "::") (nextSegment inExpr ρ) (← ahead)
  return Ty.append (.qualified (lt ++ self.tokens ++ as.getD [] ++ gt) [] s) ss

/-- A path of either kind. -/
def anyPath (inExpr : Bool) (ρ : Rules) : Parser Ty := do
  if ← peek (Look.op "<") then qualifiedPath inExpr ρ else return (← path inExpr ρ).toTy

end RowDerive.Grammar
