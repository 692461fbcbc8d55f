import RowDerive.Grammar.Path

/-!
# The grammar of bounds

A bound is a lifetime, a trait, or the captures of an anonymous type. A trait may stand in parentheses,
may bind lifetimes, may be marked as perhaps not meant or as constant, and may end in arguments in
parentheses. A bound that is marked as constant is kept as it stood in the source.
-/

namespace RowDerive.Grammar

open RowDerive.Parser

/-- `for<...>` with the parameters that it binds. -/
def binder (ρ : Rules) : Parser (List Token) := do
  let for_ ← keyword "for"
  let lt ← op "<"
  let xs ← angleList ρ.param
  let gt ← op ">"
  return [for_] ++ lt ++ xs.tokens (Token.op ",") id ++ gt

/-- A binder, if one is ahead. -/
def binder? (ρ : Rules) : Parser (Option (List Token)) := optionally (Look.keyword "for") (binder ρ)

/-- A result type after `->`, if there is one. -/
def result (ρ : Rules) (plus : Bool) : Parser (Option Ty) :=
  optionally (Look.op "->") do
    discard (op "->")
    ρ.ty plus

/-! ## Captures -/

/-- One lifetime or type that is captured, with whether it is a lifetime. -/
def captured : Parser (Bool × List Token) := do
  if ← peek Look.lifetime then return (true, [Token.tick (← lifetime)])
  else if ← peek fun ts => Look.name ts || Look.keyword "Self" ts then
    return (false, [Token.word (← word)])
  else failNoneOf [("lifetime", Look.lifetime), ("identifier", Look.name), ("`>`", Look.op ">")]

/-- What is captured, up to `>`. -/
def captureList : Nat → Parser (Listed (Bool × List Token))
  | 0 => failTooDeep
  | fuel + 1 => do
    if ← peek (Look.op ">") then return ⟨[], false⟩
    let x ← captured
    if ← peek (Look.op ",") then
      discard (op ",")
      let l ← captureList fuel
      return ⟨x :: l.items, l.items.isEmpty || l.trailing⟩
    else if ← peek (Look.op ">") then return ⟨[x], false⟩
    else failNoneOf [("`,`", Look.op ","), ("`>`", Look.op ">")]

/-- The lifetimes and types that an anonymous type may use, `use<...>`. Lifetimes come first. -/
def captures : Parser (List Token) := do
  let use ← keyword "use"
  let lt ← op "<"
  let l ← captureList (← ahead)
  let gt ← op ">"
  return [use] ++ lt ++ (l.bring Prod.fst).tokens (Token.op ",") Prod.snd ++ gt

/-! ## Traits -/

/-- Arguments in parentheses at the end of a trait. -/
def callArgs (ρ : Rules) : Parser (List Token) := do
  discard (op? "::")
  let (args, left) ← openGroup .paren (commaList (ρ.ty true))
  let out ← result ρ false
  note left
  return [Token.parens (args.tokens (Token.op ",") Ty.tokens)] ++ Ty.resultTokens out

/-- Whether arguments in parentheses are ahead. -/
def callAhead : Look := fun ts =>
  Look.group .paren ts || (Look.op "::" ts && Look.third (Look.group .paren) ts)

/-- The mark of a constant trait, `const` or `[const]`; whether there is one. -/
def constMark (allowed : Bool) : Parser Bool := do
  let c ← get
  let place := ((Token.reveal c.rest).head?.map Token.extent).getD c.close
  if ← peek (Look.group .bracket) then
    discard (inGroup .bracket (keyword "const"))
    if !allowed then fail (.misplacedConst true) place
    return true
  else if ← peek (Look.keyword "const") then
    discard (keyword "const")
    if !allowed then fail (.misplacedConst false) place
    return true
  else return false

/-- The path of a trait with its arguments. Empty arguments in angle brackets give way to those in
parentheses. -/
def traitPath (ρ : Rules) : Parser (List Token) := do
  let p ← path false ρ
  if p.last.hasArgs then return p.tokens
  else if ← peek callAhead then
    return (Path.mk p.rooted p.init (.bare p.last.name)).tokens ++ (← callArgs ρ)
  else return p.tokens

/-- A trait as a bound, with whether it is marked as constant. -/
def traitBound (ρ : Rules) (consts : Bool) : Parser (Bool × List Token) := do
  let before ← binder? ρ
  let marked ← constMark consts
  let relaxed ← optionally (Look.op "?") (located (op "?"))
  let after ← if before.isNone && relaxed.isSome then binder? ρ else pure none
  let p ← traitPath ρ
  match relaxed, before.or after with
  | some sign, some _ => fail .relaxedBinder sign.span
  | some sign, none => return (marked, sign.val ++ p)
  | none, lifetimes => return (marked, lifetimes.getD [] ++ p)

/-! ## Bounds -/

/-- A bound as read. -/
structure Bound where
  isTrait : Bool
  tokens : List Token
  /-- Where the bound stops in the source. -/
  stop : Nat

/-- The bound that `p` reads. -/
def boundOf (isTrait : Bool) (p : Parser (List Token)) : Parser Bound := do
  let ts ← p
  return ⟨isTrait, ts, (← get).last.stop⟩

/-- A trait as a bound, perhaps in parentheses. -/
def traitAsBound (ρ : Rules) (consts : Bool) : Parser (List Token) := do
  let c ← get
  let enclosed ← peek (Look.group .paren)
  let (marked, ts) ←
    if enclosed then inGroup .paren (traitBound ρ consts) else traitBound ρ consts
  if marked then takenSince c else if enclosed then return [Token.parens ts] else return ts

/-- One bound. If `uses`, captures count as one; if `consts`, a trait may be marked as constant. -/
def bound (ρ : Rules) (uses consts : Bool) : Parser Bound := do
  if ← peek Look.lifetime then boundOf false (return [Token.tick (← lifetime)])
  else if ← peek (Look.keyword "use") then
    let ts ← located captures
    if uses then return ⟨false, ts.val, ts.span.stop⟩ else fail .misplacedCaptures ts.span
  else boundOf true (traitAsBound ρ consts)

/-- Whether another bound follows a `+`. -/
def boundAhead (consts : Bool) : Look := fun ts =>
  Look.word ts || Look.op "::" ts || Look.op "?" ts || Look.lifetime ts || Look.group .paren ts ||
    (consts && Look.group .bracket ts)

/-- Bounds parted by `+`, with whether one is a trait. A `+` may stand after the last. -/
def boundsPlus (consts plus : Bool) (one : Parser Bound) : Nat → Parser Bound
  | 0 => failTooDeep
  | fuel + 1 => do
    let b ← one
    if plus && (← peek (Look.op "+")) then
      let sign ← op "+"
      if ← peek (boundAhead consts) then
        let more ← boundsPlus consts plus one fuel
        return ⟨b.isTrait || more.isTrait, b.tokens ++ sign ++ more.tokens, more.stop⟩
      else return ⟨b.isTrait, b.tokens ++ sign, b.stop⟩
    else return b

/-- The bounds of an object, one of which has to be a trait. A fault is reported from `start`. -/
def objectBounds (ρ : Rules) (plus : Bool) (start : Nat) : Parser (List Token) := do
  let b ← boundsPlus false plus (bound ρ false false) (← ahead)
  if b.isTrait then return b.tokens else fail .lifetimesAlone ⟨start, b.stop⟩

/-- The bounds of an anonymous type, one of which has to be a trait. A fault is reported from `start`.
-/
def anonymousBounds (ρ : Rules) (plus : Bool) (start : Nat) : Parser (List Token) := do
  let b ← boundsPlus true plus (bound ρ true true) (← ahead)
  if b.isTrait then return b.tokens else fail .noTrait ⟨start, b.stop⟩

/-- Items parted by `+` until `done` holds ahead or no `+` follows. -/
def plusList (done : Parser Bool) (one : Parser (List Token)) : Nat → Parser (List Token)
  | 0 => failTooDeep
  | fuel + 1 => do
    if ← done then return []
    let b ← one
    if ← peek (Look.op "+") then
      let sign ← op "+"
      return b ++ sign ++ (← plusList done one fuel)
    else return b

/-- Bounds after the colon of a declaration, until `done` holds ahead. -/
def bounds (ρ : Rules) (done : Parser Bool) : Parser (List Token) := do
  plusList done (do return (← bound ρ false true).tokens) (← ahead)

/-- Lifetimes after the colon of a declaration, until `done` holds ahead. -/
def lifetimeBounds (done : Parser Bool) : Parser (List Token) := do
  plusList done (do return [Token.tick (← lifetime)]) (← ahead)

/-- Bounds after `+` signs that follow a type. The last sign may stand alone. -/
def addedBounds (ρ : Rules) : Nat → Parser (List Token)
  | 0 => failTooDeep
  | fuel + 1 => do
    if ← peek (Look.op "+") then
      let sign ← op "+"
      if ← peek (boundAhead false) then
        let b ← bound ρ false false
        return sign ++ b.tokens ++ (← addedBounds ρ fuel)
      else return sign
    else return []

/-- Bounds, each after a `+`. -/
def addedBoundsStrict (ρ : Rules) : Nat → Parser (List Token)
  | 0 => failTooDeep
  | fuel + 1 => do
    if ← peek (Look.op "+") then
      let sign ← op "+"
      let b ← bound ρ false false
      return sign ++ b.tokens ++ (← addedBoundsStrict ρ fuel)
    else return []

end RowDerive.Grammar
