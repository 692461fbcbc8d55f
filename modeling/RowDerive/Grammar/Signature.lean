import RowDerive.Syntax.Signature
import RowDerive.Grammar.Pattern

/-!
# The grammar of methods

Visibilities, signatures, and methods with a body. Of the parameters of a method only the first may be
a receiver.
-/

namespace RowDerive.Grammar

open RowDerive.Parser

/-! ## Visibility -/

/-- The test `p` on the content of the parentheses ahead. -/
def inParensAhead (p : Look) : Look := fun ts =>
  match Token.reveal ts with
  | .group .paren content _ _ :: _ => p content
  | _ => false

/-- One of the words that name a scope, and nothing else. -/
def scopeWord : Look := fun ts =>
  Look.anyKeyword ["crate", "self", "super"] ts && Look.second List.isEmpty ts

/-- The parentheses after `pub`, if they belong to it; else they begin a type. -/
def visibilityScope : Parser (List Token) := do
  if ← peek (inParensAhead (Look.keyword "in")) then
    let ts ← inGroup .paren do
      let in_ ← keyword "in"
      return in_ :: (← plainPath).tokens
    return [Token.parens ts]
  else if ← peek (inParensAhead scopeWord) then
    return [Token.parens [Token.word (← inGroup .paren word)]]
  else return []

/-- A visibility, as its tokens; an invisible group without content is one too. -/
def visibility : Parser (List Token) := do
  let c ← get
  match c.rest with
  | .group .invisible [] _ closing :: rest =>
    set { c with rest := rest, last := closing }
    return []
  | _ =>
    if ← peek (Look.keyword "pub") then
      let pub ← keyword "pub"
      return pub :: (← visibilityScope)
    else return []

/-! ## Parameters -/

/-- A receiver, as its tokens, in one of its forms: by reference, by value or typed. What begins a path
is no receiver. -/
def receiver (ρ : Rules) : Parser (Located (List Token)) := do
  let reference ← optionally (Look.op "&") do
    let sign ← op "&"
    return sign ++ (← lifetime?)
  let mutable ← keyword? "mut"
  let self ← located (keyword "self")
  if ← peek (Look.op "::") then failHere (.expected "`,`")
  let lead := reference.getD [] ++ mutable ++ [self.val]
  if reference.isNone && (← peek (Look.op ":")) then
    let colon ← op ":"
    return ⟨lead ++ colon ++ (← ρ.ty true).tokens, self.span⟩
  else return ⟨lead, self.span⟩

/-- A parameter as read. -/
inductive ParamRead where
  /-- A receiver, and the place of its `self`. -/
  | receiver (tokens : List Token) (self : Span)
  | typed (tokens : List Token)
  /-- Dots that stand for further parameters. -/
  | variadic (tokens : List Token)

/-- A parameter with a pattern and a type, or with dots in the place of the type. A type that begins
with a name and `<` may stand alone. -/
def patternParam (ρ : Rules) (attrs : List Token) : Parser ParamRead := do
  if ← peek fun ts => Look.name ts && Look.second (Look.op "<") ts then
    let t ← ρ.ty true
    return .typed (attrs ++ [Token.word "_"] ++ Token.op ":" ++ t.tokens)
  else
    let p ← ρ.pattern
    let lead := attrs ++ p.tokens ++ (← op ":")
    if ← peek (Look.op "...") then return .variadic (lead ++ (← op "..."))
    else return .typed (lead ++ (← ρ.ty true).tokens)

/-- A parameter of a method: dots, a receiver if it can be read as one, or a pattern. -/
def param (ρ : Rules) : Parser ParamRead := do
  let attrs := (← attributeTokens ρ).flatten
  if ← peek (Look.op "...") then return .variadic (attrs ++ (← op "..."))
  else
    match ← attempt (receiver ρ) with
    | some self => return .receiver (attrs ++ self.val) self.span
    | none => patternParam ρ attrs

/-- Parameters and the dots after them. A receiver is out of place after another parameter. -/
def params (ρ : Rules) (before : List FnParam) :
    Nat → Parser (Listed FnParam × Option (List Token))
  | 0 => failTooDeep
  | fuel + 1 => do
    if ← atEnd then return (⟨before, !before.isEmpty⟩, none)
    let more := fun (p : FnParam) => do
      if ← atEnd then return (⟨before ++ [p], false⟩, none)
      discard (op ",")
      params ρ (before ++ [p]) fuel
    match ← param ρ with
    | .variadic ts =>
      let comma ← if ← atEnd then pure [] else op ","
      return (⟨before, !before.isEmpty⟩, some (ts ++ comma))
    | .receiver ts self =>
      if before.any FnParam.isReceiver then fail .secondReceiver self
      else if !before.isEmpty then fail .lateReceiver self
      else more (.receiver ts)
    | .typed ts => more (.typed ts)

/-! ## Signatures -/

/-- The keyword `s`, if it is ahead. -/
def flag (s : String) : Parser Bool := do return !(← keyword? s).isEmpty

/-- A signature up to its `where`, and what is left over among its parameters. Among foreign
declarations it may have the keyword `safe`; returned is also whether it has. -/
def signatureHead (ρ : Rules) (foreign : Bool) :
    Parser ((Bool × Signature) × Option (Located Delimiter)) := do
  let isConst ← flag "const"
  let isAsync ← flag "async"
  let isUnsafe ← flag "unsafe"
  let isSafe ← if foreign && !isUnsafe then flag "safe" else pure false
  let ext ← abi?
  discard (keyword "fn")
  let x ← name
  let generics ← genericParams ρ
  let ((params, variadic), left) ← openGroup .paren do params ρ [] (← ahead)
  let out ← result ρ true
  let sig : Signature :=
    ⟨isConst, isAsync, isUnsafe, ext, x, ⟨generics, none⟩, params, variadic, out⟩
  return ((isSafe, sig), left)

/-- A signature with its `where`. One without predicates does not count to its place. -/
def signatureWith (ρ : Rules) (foreign : Bool) : Parser (Located (Bool × Signature)) := do
  let head ← located (signatureHead ρ foreign)
  let ((isSafe, sig), left) := head.val
  let preds ← located (whereClause ρ)
  note left
  let span := if preds.val.any (!·.isEmpty) then head.span.cover preds.span else head.span
  return ⟨(isSafe, sig.withPredicates preds.val), span⟩

/-- The signature of a method. -/
def signature (ρ : Rules) : Parser (Located Signature) := do
  let sig ← signatureWith ρ false
  return ⟨sig.val.2, sig.span⟩

/-- Whether the keywords of a signature are ahead, up to its `fn`. -/
def signatureAhead (foreign : Bool) : Parser Bool := do
  let found ← foresee do
    discard (keyword? "const")
    discard (keyword? "async")
    let isSafe ← if foreign then flag "safe" else pure false
    if !isSafe then discard (keyword? "unsafe")
    discard abi?
    discard (keyword "fn")
  return found.isSome

/-! ## Methods -/

/-- A method without its body, at the place of its signature. -/
def method (ρ : Rules) : Parser (Located Method) := do
  let attrs ← attributeTokens ρ
  let vis ← visibility
  let sig ← signature ρ
  return ⟨⟨attrs, vis, sig.val⟩, sig.span⟩

/-- Methods without bodies, parted by semicolons. -/
def methodList (ρ : Rules) : Parser (List (Located Method)) := do
  return (← listUntil ";" atEnd (method ρ) (← ahead)).items

/-- A method up to its body, as its tokens. -/
def implementationHead (ρ : Rules) : Parser (List Token) := do
  let attrs ← attributeTokens ρ
  let vis ← visibility
  let default ← keyword? "default"
  let sig ← signature ρ
  return attrs.flatten ++ vis ++ default ++ sig.val.tokens

/-- A method with its body, as its tokens. -/
def implementation (ρ : Rules) : Parser (List Token) := do
  return (← implementationHead ρ) ++ [← ρ.block true]

end RowDerive.Grammar
