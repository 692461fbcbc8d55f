import RowDerive.Grammar.Bound

/-!
# The grammar of types

Types and the arguments that stand in angle brackets.
-/

namespace RowDerive.Grammar

open RowDerive.Parser

/-! ## Arguments -/

/-- A constant in the place of an argument: a literal, a name or a block. -/
def constArg (ρ : Rules) : Parser (List Token) := do
  if ← peek Look.literal then literal
  else if ← peek Look.name then return [Token.word (← name)]
  else if ← peek (Look.group .brace) then return [← ρ.block true]
  else failNoneOf []

/-- What a segment without a path around it names, if a binding or a bound may follow it. -/
def bindable? : Ty → Option Segment
  | .path false [] s => some s
  | _ => none

/-- Whether a constant argument is ahead that is no name. -/
def constAhead : Look := fun ts => Look.literal ts || Look.group .brace ts

/-- What a name in the place of an argument is bound to, after `=`. -/
def argBinding (ρ : Rules) : Parser (List Token) := do
  let eq ← op "="
  if ← peek constAhead then return eq ++ (← constArg ρ)
  else return eq ++ (← ρ.ty true).tokens

/-- Whether a list in angle brackets goes on or ends here. -/
def angleEnd : Look := Look.anyOp [",", ">"]

/-- The bounds on a name in the place of an argument, after `:`. -/
def argBounds (ρ : Rules) : Parser (List Token) := do
  let colon ← op ":"
  return colon ++ (← bounds ρ (peek angleEnd))

/-- An argument in angle brackets, given the rules one level down. -/
def arg (ρ : Rules) : Parser TyArg := do
  if ← peek fun ts => Look.lifetime ts && !Look.second (Look.op "+") ts then
    return .lifetime (← lifetime)
  else if ← peek constAhead then return .other (← constArg ρ)
  else
    let t ← ρ.ty true
    match bindable? t with
    | none => return .type t
    | some s =>
      if ← peek (Look.op "=") then return .other (s.tokens ++ (← argBinding ρ))
      else if ← peek (Look.op ":") then return .other (s.tokens ++ (← argBounds ρ))
      else return .type t

/-! ## Function types -/

/-- `extern`, with a name or without, if it is ahead. -/
def abi? : Parser (Option (List Token)) :=
  optionally (Look.keyword "extern") do
    let ext ← keyword "extern"
    let x ← optionally Look.stringLiteral stringLiteral
    return [ext] ++ (x.map fun s => Token.lit s.token).toList

/-- Whether a receiver that is changed in place is ahead. -/
def mutSelfAhead : Look := fun ts =>
  Look.keyword "mut" ts && Look.second (Look.keyword "self") ts

/-- A parameter of a function type. The first may be a receiver; one that is changed in place is kept as
it stood in the source. -/
def fnTypeParam (ρ : Rules) (first : Bool) : Parser (List Token) := do
  let c ← get
  let isSelf := Look.keyword "self"
  let changed ← peek fun ts => first && mutSelfAhead ts
  if changed then discard (keyword "mut")
  let named ← optionally (fun ts =>
      (Look.name ts || Look.keyword "_" ts || (first && isSelf ts)) &&
        Look.second (Look.op ":") ts && !Look.second (Look.op "::") ts) do
    let received ← peek isSelf
    return (received, [Token.word (← word)] ++ (← op ":"))
  if (← peek fun ts => first && mutSelfAhead ts) && !named.any Prod.fst then
    discard (keyword "mut")
    discard (keyword "self")
    takenSince c
  else if changed && named.isNone then
    discard (keyword "self")
    takenSince c
  else
    let t ← ρ.ty true
    if changed then takenSince c else return (named.map Prod.snd).getD [] ++ t.tokens

/-- Dots for further parameters, perhaps with a name, and the comma after them. -/
def fnTypeDots : Parser (List Token) := do
  let x ← optionally (fun ts => Look.name ts || Look.keyword "_" ts) do
    return [Token.word (← word)] ++ (← op ":")
  let dots ← op "..."
  return x.getD [] ++ dots ++ (← op? ",")

/-- Whether dots for further parameters are ahead, perhaps with a name. -/
def fnTypeDotsAhead : Look := fun ts =>
  Look.op "..." ts || ((Look.name ts || Look.keyword "_" ts) &&
    Look.second (Look.op ":") ts && Look.third (Look.op "...") ts)

/-- The parameters of a function type; dots may be the last. -/
def fnTypeParams (ρ : Rules) (first : Bool) : Nat → Parser (List Token)
  | 0 => failTooDeep
  | fuel + 1 => do
    if ← atEnd then return []
    let attrs := (← attributeTokens ρ).flatten
    if ← peek fnTypeDotsAhead then return attrs ++ (← fnTypeDots)
    let p ← fnTypeParam ρ first
    if ← atEnd then return attrs ++ p
    let comma ← op ","
    return attrs ++ p ++ comma ++ (← fnTypeParams ρ false fuel)

/-- A function type, as its tokens. -/
def fnType (ρ : Rules) : Parser (List Token) := do
  let unsafety ← keyword? "unsafe"
  let ext ← abi?
  let fn ← keyword "fn"
  let (params, left) ← openGroup .paren do fnTypeParams ρ true (← ahead)
  let out ← result ρ false
  note left
  return unsafety ++ ext.getD [] ++ [fn, Token.parens params] ++ Ty.resultTokens out

/-! ## Types in parentheses -/

/-- What stands between parentheses in the place of a type. -/
inductive InParens where
  /-- Types parted by commas, at least one comma if any. -/
  | tuple (types : Listed Ty)
  | single (t : Ty)
  /-- The bounds of an object that begin with a lifetime. -/
  | object (tokens : List Token)
  /-- A trait that is perhaps not meant. -/
  | relaxed (tokens : List Token)

/-- The content of parentheses in the place of a type. -/
def inParens (ρ : Rules) : Parser InParens := do
  if ← atEnd then return .tuple ⟨[], false⟩
  else if ← peek Look.lifetime then
    return .object (← objectBounds ρ true (here (← get)).start)
  else if ← peek (Look.op "?") then return .relaxed (← traitBound ρ false).2
  else
    let t ← ρ.ty true
    if ← peek (Look.op ",") then
      discard (op ",")
      let more ← commaList (ρ.ty true)
      return .tuple ⟨t :: more.items, more.items.isEmpty || more.trailing⟩
    else return .single t

/-- The bound that a type in parentheses is, if other bounds may be added to it. -/
def asBound? : Ty → Option (List Token)
  | .path rooted init last => some (Ty.path rooted init last).tokens
  | .bound _ ts => some ts
  | _ => none

/-- A type that begins with what stands in parentheses. -/
def parenTypeFrom (ρ : Rules) (plus : Bool) : InParens → Parser Ty
  | .tuple types => return .other [Token.parens (types.tokens (Token.op ",") Ty.tokens)]
  | .object ts => return .paren (.other ts)
  | .relaxed ts => do
    let more ← addedBoundsStrict ρ (← ahead)
    if more.isEmpty then return .bound true ts else return .other (Token.parens ts :: more)
  | .single t => do
    match asBound? t with
    | some ts =>
      let more ← if plus then addedBoundsStrict ρ (← ahead) else pure []
      if more.isEmpty then return .paren t else return .other (Token.parens ts :: more)
    | none => return .paren t

/-- A type that begins with parentheses. -/
def parenType (ρ : Rules) (plus : Bool) : Parser Ty := do
  let (content, left) ← openGroup .paren (inParens ρ)
  let t ← parenTypeFrom ρ plus content
  note left
  return t

/-! ## Other types -/

/-- A type that is a compiler's own, `builtin # name(...)`. -/
def builtin : Parser Unit := do
  discard (keyword "builtin")
  discard (op "#")
  discard name
  anyContent .paren

/-- Whether what is the compiler's own is ahead. -/
def builtinAhead : Look := fun ts =>
  Look.keyword "builtin" ts && Look.second (Look.op "#") ts

/-- A type that begins with a path: a macro call, a sum of bounds, or the path. -/
def pathType (ρ : Rules) (lifetimes : Option (List Token)) (plus : Bool) : Parser Ty := do
  let t ← anyPath false ρ
  match t with
  | .path .. =>
    if t.isPlainPath && (← peek bangAhead) then
      let (_, ts) ← macroArgs
      return .other (t.tokens ++ ts)
    else
      let more ← if plus then addedBounds ρ (← ahead) else pure []
      match lifetimes with
      | some xs =>
        if more.isEmpty then return .bound false (xs ++ t.tokens)
        else return .other (xs ++ t.tokens ++ more)
      | none => if more.isEmpty then return t else return .other (t.tokens ++ more)
  | t => return t

/-- The same path with a last segment that has the arguments ahead, if that has none so far. -/
def withArgs? (ρ : Rules) : Ty → Option (Parser Ty)
  | .path rooted init (.bare x) => some do return .path rooted init (← segmentWith x ρ)
  | .qualified self init (.bare x) => some do return .qualified self init (← segmentWith x ρ)
  | _ => none

/-- The path with a type as its qualified self, and no segment but those ahead. -/
def pathOfSelf (ρ : Rules) (t : Ty) : Parser Ty := do
  let s ← nextSegment false ρ
  let self := Token.op "<" ++ t.tokens ++ Token.op ">"
  return Ty.append (.qualified self [] s) (← segments false ρ)

/-- A type that is an invisible group, or a path that begins with one. If `args`, arguments in angle
brackets that follow the group belong to the path in it. -/
def groupType (ρ : Rules) (args : Bool) : Parser Ty := do
  let t ← inGroup .invisible (ρ.ty true)
  if ← peek fun ts => Look.op "::" ts && Look.third Look.word ts then
    match t with
    | .path .. | .qualified .. => return t.append (← segments false ρ)
    | t => pathOfSelf ρ t
  else if ← peek fun ts =>
      (args && Look.op "<" ts) || (Look.op "::" ts && Look.third (Look.op "<") ts) then
    match withArgs? ρ t with
    | some p => return (← p).append (← segments false ρ)
    | none => return .group t
  else return .group t

/-- A type in brackets: a slice or an array. -/
def bracketType (ρ : Rules) : Parser Ty :=
  inGroup .bracket do
    let t ← ρ.ty true
    if ← peek (Look.op ";") then
      let semi ← op ";"
      return .other [Token.enclose .bracket (t.tokens ++ semi ++ (← ρ.whole))]
    else return .slice t

/-- A raw pointer. -/
def pointerType (ρ : Rules) : Parser Ty := do
  let star ← op "*"
  let kind ←
    if ← peek (Look.keyword "const") then keyword "const"
    else if ← peek (Look.keyword "mut") then keyword "mut"
    else failNoneOf [("`const`", Look.keyword "const"), ("`mut`", Look.keyword "mut")]
  return .other (star ++ [kind] ++ (← ρ.ty false).tokens)

/-- A reference. -/
def referenceType (ρ : Rules) : Parser Ty := do
  discard (op "&")
  let l ← optionally Look.lifetime lifetime
  let m ← keyword? "mut"
  return .reference l (!m.isEmpty) (← ρ.ty false)

/-- An object. One with `*` is kept as it stood in the source, from `c` on. -/
def dynType (ρ : Rules) (c : Cursor) (plus : Bool) : Parser Ty := do
  let dyn ← located (keyword "dyn")
  let star ← op? "*"
  let ts ← objectBounds ρ plus dyn.span.start
  if star.isEmpty then return .other (dyn.val :: ts) else return .other (← takenSince c)

/-- An anonymous type. -/
def implType (ρ : Rules) (plus : Bool) : Parser Ty := do
  let impl ← located (keyword "impl")
  return .other (impl.val :: (← anonymousBounds ρ plus impl.span.start))

/-- Whether a function type is ahead. -/
def fnAhead : Look := Look.anyKeyword ["fn", "unsafe", "extern"]

/-- What the type after `for<...>` may begin with. -/
def forTargets : List (String × Look) :=
  [("identifier", Look.name), ("`fn`", Look.keyword "fn"), ("`unsafe`", Look.keyword "unsafe"),
   ("`extern`", Look.keyword "extern"), ("`super`", Look.keyword "super"),
   ("`self`", Look.keyword "self"), ("`Self`", Look.keyword "Self"),
   ("`crate`", Look.keyword "crate")]

/-- What a type may begin with. -/
def typeStarts : List (String × Look) :=
  [("`for`", Look.keyword "for"), ("parentheses", Look.group .paren), ("`fn`", Look.keyword "fn"),
   ("`unsafe`", Look.keyword "unsafe"), ("`extern`", Look.keyword "extern"),
   ("identifier", Look.name), ("`::`", Look.op "::"), ("`<`", Look.op "<"),
   ("`dyn`", Look.keyword "dyn"), ("square brackets", Look.group .bracket), ("`*`", Look.op "*"),
   ("`&`", Look.op "&"), ("`!`", Look.op "!"), ("`impl`", Look.keyword "impl"),
   ("`_`", Look.keyword "_"), ("lifetime", Look.lifetime)]

/-- A type that begins neither with an invisible group nor with `for`. -/
def typeFrom (ρ : Rules) (c : Cursor) (lifetimes : Option (List Token)) (plus : Bool) :
    Parser Ty := do
  if ← peek (Look.group .paren) then parenType ρ plus
  else if ← peek fnAhead then return .other (lifetimes.getD [] ++ (← fnType ρ))
  else if ← peek builtinAhead then
    builtin
    return .other (← takenSince c)
  else if ← peek fun ts => pathAhead ts || Look.op "<" ts then pathType ρ lifetimes plus
  else if ← peek (Look.keyword "dyn") then dynType ρ c plus
  else if ← peek (Look.group .bracket) then bracketType ρ
  else if ← peek (Look.op "*") then pointerType ρ
  else if ← peek (Look.op "&") then referenceType ρ
  else if ← peek (Look.op "!") then return .other (← op "!")
  else if ← peek (Look.keyword "impl") then implType ρ plus
  else if ← peek (Look.keyword "_") then return .other [← keyword "_"]
  else if ← peek Look.lifetime then
    return .other (← objectBounds ρ true (here (← get)).start)
  else failNoneOf typeStarts

/-- A type, given the rules one level down. If `args`, arguments in angle brackets may follow a type in
an invisible group. -/
def type (ρ : Rules) (plus args : Bool) : Parser Ty := do
  if ← peek Look.invisible then groupType ρ args
  else
    let c ← get
    let lifetimes ← binder? ρ
    if lifetimes.isSome && !(← peek fun ts => forTargets.any (·.2 ts)) then failNoneOf forTargets
    else typeFrom ρ c lifetimes plus

end RowDerive.Grammar
