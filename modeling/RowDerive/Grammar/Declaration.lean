import RowDerive.Grammar.Member

/-!
# The grammar of declarations

The declarations that a block may hold among its statements. Nothing is derived from them, so they are
read for their tokens alone.
-/

namespace RowDerive.Grammar

open RowDerive.Parser

/-! ## Imports -/

/-- What an import may begin with. -/
def importStarts : List (String × Look) :=
  [("identifier", Look.name), ("`self`", Look.keyword "self"), ("`super`", Look.keyword "super"),
   ("`crate`", Look.keyword "crate"), ("`try`", Look.keyword "try"), ("`*`", Look.op "*"),
   ("curly braces", Look.group .brace)]

/-- Whether a name is ahead that can be imported. -/
def importNameAhead : Look := fun ts =>
  Look.name ts || Look.anyKeyword ["self", "super", "crate", "try"] ts

/-- The other name after `as`. -/
def importName : Parser Token := do
  if ← peek fun ts => Look.name ts || Look.keyword "_" ts then return Token.word (← word)
  else failExpected "identifier or underscore"

/-- What is imported: a name, all names, or several in braces. Those in braces may begin at the root if
`roots`; such an import is kept as it stood in the source. -/
def importTree : (depth : Nat) → (roots : Bool) → Parser Written
  | 0, _ => failTooDeep
  | depth + 1, roots => do
    if ← peek importNameAhead then
      let x ← word
      if ← peek (Look.op "::") then
        let sep ← op "::"
        return (← importTree depth false).map (Token.word x :: sep ++ ·)
      else if ← peek (Look.keyword "as") then
        let as ← keyword "as"
        return some [Token.word x, as, ← importName]
      else return some [Token.word x]
    else if ← peek (Look.op "*") then return some (← op "*")
    else if ← peek (Look.group .brace) then
      let trees ← inGroup .brace <| commaList do
        let root ← if roots then op? "::" else pure []
        let tree ← importTree depth (roots && root.isEmpty)
        return if root.isEmpty then tree else none
      if trees.items.any Option.isNone then return none
      else return some [Token.enclose .brace (trees.tokens (Token.op ",") (·.getD []))]
    else failNoneOf importStarts

/-- An import. -/
def importItem : Parser Written := do
  let use ← keyword "use"
  let root ← op? "::"
  let tree ← importTree (← ahead) root.isEmpty
  let semi ← op ";"
  return tree.map (use :: root ++ · ++ semi)

/-- An import of a whole library, perhaps under another name. -/
def importLibrary : Parser (List Token) := do
  let ext ← keyword "extern"
  let crate ← keyword "crate"
  let x ← if ← peek (Look.keyword "self") then word else name
  let rename ← optionally (Look.keyword "as") do
    let as ← keyword "as"
    let y ← if ← peek (Look.keyword "_") then word else name
    return [as, Token.word y]
  return [ext, crate, Token.word x] ++ rename.getD [] ++ (← op ";")

/-! ## Blocks of declarations -/

/-- Foreign declarations. -/
def foreignBlock (ρ : Rules) : Parser (List Token) := do
  let unsafety ← keyword? "unsafe"
  match ← abi? with
  | some ext => return unsafety ++ ext ++ [← bracedItems ρ (foreignItem ρ)]
  | none => failExpected "`extern`"

/-- A declaration that begins with `extern`. Foreign declarations, which begin at `start`, have no
visibility. -/
def foreignDeclaration (ρ : Rules) (start : Cursor) (vis : List Token) : Parser (List Token) := do
  let brace := ("curly braces", Look.group .brace)
  let ts := (← get).rest
  if Look.second (Look.keyword "crate") ts then return vis ++ (← importLibrary)
  else if Look.second (Look.group .brace) ts then
    set start
    foreignBlock ρ
  else if Look.second Look.stringLiteral ts then
    discard abi?
    if ← peek (Look.group .brace) then
      set start
      foreignBlock ρ
    else failNoneOf [brace]
  else
    discard (keyword "extern")
    failNoneOf [("`crate`", Look.keyword "crate"), brace, ("string literal", Look.stringLiteral)]

/-- A module, with its declarations or without. -/
def moduleItem (ρ : Rules) : Parser (List Token) := do
  let unsafety ← keyword? "unsafe"
  let mod ← keyword "mod"
  let x ← if ← peek (Look.keyword "try") then word else name
  let lead := unsafety ++ [mod, Token.word x]
  if ← peek (Look.op ";") then return lead ++ (← op ";")
  else if ← peek (Look.group .brace) then return lead ++ [← bracedItems ρ ρ.item]
  else failNoneOf [("`;`", Look.op ";"), ("curly braces", Look.group .brace)]

/-! ## Values -/

/-- A variable. One without a type or a value is kept as it stood in the source. -/
def static (ρ : Rules) : Parser Written := do
  let static ← keyword "static"
  let m ← keyword? "mut"
  let x ← name
  if ← peek (Look.op "=") then
    discard (value? ρ)
    discard (op ";")
    return none
  else
    let colon ← op ":"
    let t ← ρ.ty true
    if ← peek (Look.op ";") then
      discard (op ";")
      return none
    else
      let eq ← op "="
      let e ← ρ.whole
      let semi ← op ";"
      return some ([static] ++ m ++ [Token.word x] ++ colon ++ t.tokens ++ eq ++ e ++ semi)

/-! ## Types -/

/-- Another name for a type. -/
def aliasItem (ρ : Rules) : Parser Written := do
  let x ← namedType ρ .before
  match x.bounds, x.definition with
  | none, some ts => return some (x.head ++ whereTokens x.predicates ++ ts ++ Token.op ";")
  | _, _ => return none

/-- The keyword `k`, a name and its parameters. -/
def typeHead (ρ : Rules) (k : String) : Parser (List Token) := do
  let kind ← keyword k
  let x ← name
  let params ← genericParams ρ
  return [kind, Token.word x] ++ Generics.declared ⟨params, none⟩

/-- A record, an enumeration or a union. -/
def typeItem (ρ : Rules) : Parser (List Token) := do
  if ← peek (Look.keyword "struct") then return (← typeHead ρ "struct") ++ (← recordBody ρ).tokens
  else if ← peek (Look.keyword "enum") then return (← typeHead ρ "enum") ++ (← variantsBody ρ).2
  else return (← typeHead ρ "union") ++ (← unionBody ρ).2

/-! ## Traits -/

/-- What follows the name of a trait and its parameters. -/
def traitBody (ρ : Rules) : Parser (List Token) := do
  let bounds ← optionally (Look.op ":") do
    discard (op ":")
    boundsUntil ρ fun ts => Look.keyword "where" ts || Look.group .brace ts
  let preds ← whereClause ρ
  return GenericParam.boundTokens bounds ++ whereTokens preds ++ [← bracedItems ρ (traitItem ρ)]

/-- A trait that is another name for bounds, from its `=`. -/
def traitAliasBody (ρ : Rules) : Parser (List Token) := do
  let eq ← op "="
  let bounds ← boundsUntil ρ fun ts => Look.keyword "where" ts || Look.op ";" ts
  let preds ← whereClause ρ
  return eq ++ bounds ++ whereTokens preds ++ (← op ";")

/-- A trait without marks, or another name for bounds. -/
def plainTrait (ρ : Rules) : Parser (List Token) := do
  let head ← typeHead ρ "trait"
  if ← peek fun ts => Look.group .brace ts || Look.op ":" ts || Look.keyword "where" ts then
    return head ++ (← traitBody ρ)
  else if ← peek (Look.op "=") then return head ++ (← traitAliasBody ρ)
  else failNoneOf [("curly braces", Look.group .brace), ("`:`", Look.op ":"),
    ("`where`", Look.keyword "where"), ("`=`", Look.op "=")]

/-- A trait that is unsafe or automatic. -/
def markedTrait (ρ : Rules) : Parser (List Token) := do
  let marks := (← keyword? "unsafe") ++ (← keyword? "auto")
  return marks ++ (← typeHead ρ "trait") ++ (← traitBody ρ)

/-! ## Implementations -/

/-- The path of a trait that is implemented, if the type is one. -/
def implemented? : Ty → Option (List Token)
  | .group t => implemented? t
  | .path rooted init last => some (Ty.path rooted init last).tokens
  | _ => none

/-- Whether the mark of a constant implementation is ahead. -/
def constImplAhead : Look := fun ts =>
  Look.keyword "const" ts || (Look.op "?" ts && Look.second (Look.keyword "const") ts)

/-- What is implemented, and for what. -/
def implHead (ρ : Rules) : Parser Written := do
  let negative ← optionally
    (fun ts => Look.op "!" ts && !Look.second (Look.group .brace) ts) (located (op "!"))
  let t ← ρ.ty true
  if ← peek (Look.keyword "for") then
    let for_ ← keyword "for"
    let self ← ρ.ty true
    let sign := negative.elim [] Located.val
    return (implemented? t).map fun ts => sign ++ ts ++ [for_] ++ self.tokens
  else
    match negative with
    | some sign => fail .negativeInherent sign.span
    | none => return some t.tokens

/-- An implementation. One that is constant, or of what is no trait, is kept as it stood in the source.
-/
def implBlock (ρ : Rules) : Parser Written := do
  let default ← keyword? "default"
  let unsafety ← keyword? "unsafe"
  let impl ← keyword "impl"
  let params ← if ← peek paramsAhead then genericParams ρ else pure none
  let isConst ← peek constImplAhead
  if isConst then
    discard (op? "?")
    discard (keyword "const")
  let head ← implHead ρ
  let preds ← whereClause ρ
  let body ← bracedItems ρ (implItem ρ)
  let lead := default ++ unsafety ++ [impl] ++ Generics.declared ⟨params, none⟩
  return if isConst then none else head.map fun ts => lead ++ ts ++ whereTokens preds ++ [body]

/-! ## All declarations -/

/-- The declaration of a macro. It is kept as it stood in the source. -/
def macroDeclaration : Parser Unit := do
  discard (keyword "macro")
  discard name
  let params ← peek (Look.group .paren)
  if params then anyContent .paren
  if ← peek (Look.group .brace) then anyContent .brace
  else failNoneOf ((if params then [] else [("parentheses", Look.group .paren)]) ++
    [("curly braces", Look.group .brace)])

/-- Whether an automatic trait is ahead. -/
def autoTraitAhead : Look := fun ts =>
  Look.keyword "auto" ts && Look.second (Look.keyword "trait") ts

/-- What may follow `unsafe` in a declaration. -/
def unsafeTargets : List (String × Look) :=
  [("`trait`", Look.keyword "trait"), ("`auto`", Look.keyword "auto"), ("`impl`", Look.keyword "impl"),
   ("`extern`", Look.keyword "extern"), ("`mod`", Look.keyword "mod")]

/-- A declaration that begins with `unsafe` and is no function. Foreign declarations, which begin at
`start`, have no visibility, nor has an implementation. -/
def unsafeItem (ρ : Rules) (start : Cursor) (vis : List Token) : Parser Written := do
  let ts := (← get).rest
  if Look.second (fun ts => Look.keyword "trait" ts || autoTraitAhead ts) ts then
    return some (vis ++ (← markedTrait ρ))
  else if Look.second (Look.keyword "impl") ts then
    let read ← implBlock ρ
    return if vis.isEmpty then read else none
  else if Look.second (Look.keyword "extern") ts then
    set start
    return some (← foreignBlock ρ)
  else if Look.second (Look.keyword "mod") ts then return some (vis ++ (← moduleItem ρ))
  else
    discard (keyword "unsafe")
    failNoneOf unsafeTargets

/-- Whether a union is ahead. -/
def unionAhead : Look := fun ts => Look.keyword "union" ts && Look.second Look.name ts

/-- Whether an implementation is ahead that is not unsafe. -/
def implAhead : Look := fun ts =>
  Look.keyword "impl" ts || (Look.keyword "default" ts && !Look.second (Look.op "!") ts)

/-- What a declaration may begin with. A macro call has no visibility. -/
def itemStarts (calls : Bool) : List (String × Look) :=
  [("`fn`", Look.keyword "fn"), ("`extern`", Look.keyword "extern"), ("`use`", Look.keyword "use"),
   ("`static`", Look.keyword "static"), ("`const`", Look.keyword "const"),
   ("`unsafe`", Look.keyword "unsafe"), ("`mod`", Look.keyword "mod"), ("`type`", Look.keyword "type"),
   ("`struct`", Look.keyword "struct"), ("`enum`", Look.keyword "enum"),
   ("`union`", Look.keyword "union"), ("`trait`", Look.keyword "trait"),
   ("`auto`", Look.keyword "auto"), ("`impl`", Look.keyword "impl"),
   ("`default`", Look.keyword "default"), ("`macro`", Look.keyword "macro")] ++
    if calls then callStarts else []

/-- A declaration behind its visibility, which begins at `start`. -/
def itemFrom (ρ : Rules) (start : Cursor) (vis : List Token) : Parser Written := do
  let shown : Written → Written := fun read => read.map (vis ++ ·)
  if ← functionAhead false then return shown (← function ρ)
  else if ← peek (Look.keyword "extern") then return some (← foreignDeclaration ρ start vis)
  else if ← peek (Look.keyword "use") then return shown (← importItem)
  else if ← peek (Look.keyword "static") then return shown (← static ρ)
  else if ← peek (Look.keyword "const") then return shown (← valuedConstant ρ)
  else if ← peek (Look.keyword "unsafe") then unsafeItem ρ start vis
  else if ← peek (Look.keyword "mod") then return some (vis ++ (← moduleItem ρ))
  else if ← peek (Look.keyword "type") then return shown (← aliasItem ρ)
  else if ← peek fun ts => Look.anyKeyword ["struct", "enum"] ts || unionAhead ts then
    return some (vis ++ (← typeItem ρ))
  else if ← peek (Look.keyword "trait") then return some (vis ++ (← plainTrait ρ))
  else if ← peek autoTraitAhead then return some (vis ++ (← markedTrait ρ))
  else if ← peek implAhead then
    let read ← implBlock ρ
    return if vis.isEmpty then read else none
  else if ← peek (Look.keyword "macro") then
    macroDeclaration
    return none
  else if vis.isEmpty && (← peek macroAhead) then return some (← macroItem true)
  else failNoneOf (itemStarts vis.isEmpty)

/-- A declaration behind its attributes, which begin at `c`. -/
def itemAfter (ρ : Rules) (c : Cursor) (attrs : List Token) : Parser (List Token) := do
  let start ← get
  let vis ← visibility
  written c attrs (← itemFrom ρ start vis)

/-- A declaration, as its tokens, given the rules one level down. -/
def anyItem (ρ : Rules) : Parser (List Token) := do
  let c ← get
  let attrs := (← attributeTokens ρ).flatten
  itemAfter ρ c attrs

end RowDerive.Grammar
