import RowDerive.Grammar.Item
import RowDerive.Problem

/-!
# Settings of a column

The arguments of `#[column(...)]`: a name and an adapter, each at most once, in any order. They are read
from left to right and the first problem ends the reading.
-/

namespace RowDerive

open RowDerive.Parser RowDerive.Grammar

namespace Token

mutual

/-- Where the first token inside the invisible groups that `t` is stops, and whether it ends them. A
group that ends with the token stops with it. -/
def frontStop? : Token → Option (Nat × Bool)
  | group .invisible ts _ c =>
    match listFrontStop? ts with
    | some (_, true) => some (c.stop, true)
    | stop => stop
  | ident _ s | lifetime _ s | punct _ _ s | literal _ s | group _ _ _ s => some (s.stop, true)

/-- Where the first token that no invisible group holds stops, and whether it ends the tokens. -/
def listFrontStop? : List Token → Option (Nat × Bool)
  | [] => none
  | t :: ts =>
    match frontStop? t with
    | some (n, ends) => some (n, ends && ts.isEmpty)
    | none => listFrontStop? ts

end

end Token

/-- The settings of a column. -/
structure Setting where
  /-- The name as written, which is the key of the column. -/
  name : Option (Located StringLiteral)
  /-- The type that puts the field into the row. -/
  adapter : Option Ty
deriving DecidableEq, Repr

namespace Setting

/-- No settings. -/
def none : Setting := ⟨.none, .none⟩

/-! ## Reading -/

/-- A reader whose faults are reports. -/
abbrev Reader := StateT Cursor (Except Report)

/-- A reader of syntax as a reader of settings. -/
def read {α : Type} (p : Parser α) : Reader α := fun c =>
  match p c with
  | .ok r => .ok r
  | .error e => .error (.ofSyntax e)

/-- The names of a path, of which the first was read; keywords may be among them. -/
def keyRest : Nat → Parser (List String)
  | 0 => failTooDeep
  | fuel + 1 => do
    if ← peek (Look.op "::") then
      discard (op "::")
      let x ← word
      return x :: (← keyRest fuel)
    else return []

/-- The path that begins a setting. -/
def key : Parser PlainPath := do
  let rooted := !(← op? "::").isEmpty
  if ← peek Look.word then
    let x ← word
    return ⟨rooted, x :: (← keyRest (← ahead))⟩
  else if ← atEnd then failExpected "nested attribute"
  else failHere (if ← peek Look.literal then .nestedLiteral else .nestedToken)

/-- The value of a setting, after its `=`. -/
def value {α : Type} (p : Parser α) : Reader α := read do
  discard (op "=")
  p

/-- One setting, added to those before it. The place of a key that stands twice takes in the invisible
groups that end with it. -/
def entry (ρ : Rules) (s : Setting) : Reader Setting := do
  let c ← get
  let k ← read (located key)
  let whole : Span := ⟨k.span.start, (Token.listFrontStop? c.rest).elim k.span.stop Prod.fst⟩
  if k.val.isName "name" then
    if s.name.isSome then throw ⟨.duplicateName, whole⟩
    let x ← value (located stringLiteral)
    if x.val.value.isEmpty then throw ⟨.emptyName, x.span⟩
    return { s with name := some x }
  else if k.val.isName "adapter" then
    if s.adapter.isSome then throw ⟨.duplicateAdapter, whole⟩
    let t ← value (ρ.ty true)
    return { s with adapter := some t }
  else throw ⟨.unknownSetting, k.span⟩

/-- Settings parted by commas; a comma may stand after the last. -/
def entries (ρ : Rules) (s : Setting) : Nat → Reader Setting
  | 0 => read failTooDeep
  | fuel + 1 => do
    if ← read atEnd then return s
    let s ← entry ρ s
    if ← read atEnd then return s
    read (discard (op ","))
    entries ρ s fuel

/-- The settings that the tokens are; their end is at `close`. -/
def ofTokens (ts : List Token) (close : Span) : Except Report Setting :=
  match entries (rulesFor ts) none (Token.sizeList ts + 1) (.ofTokens ts close) with
  | .ok (s, c) =>
    match c.remainder? with
    | .none => .ok s
    | some left => .error (.ofSyntax ⟨.leftOver left.val, left.span⟩)
  | .error r => .error r

/-- The settings in an attribute. -/
def ofAttribute (a : Attribute) : Except Report Setting :=
  match a.args with
  | .ok (content, close) => ofTokens content close
  | .error e => .error (.ofSyntax e)

end Setting

end RowDerive
