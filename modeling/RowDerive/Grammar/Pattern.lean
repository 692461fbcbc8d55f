import RowDerive.Grammar.Generics

/-!
# The grammar of patterns

A pattern is a binding, a value or a range of values, a path with what it holds, or several patterns in
delimiters. Alternatives, parted by `|`, stand where something delimits them.
-/

namespace RowDerive.Grammar

open RowDerive.Parser

/-! ## Members -/

/-- The fault in the number of a field, or its value. A text with a point is the number of no field. -/
def fieldIndex (signed : Bool) (text : String) : Except SyntaxFault Nat :=
  match Literal.integer? text with
  | none => .error (.expected "integer literal")
  | some (n, suffixed) =>
    if suffixed then .error .suffixedInteger
    else if signed then .error .signedInteger
    else if n < 4294967296 then .ok n
    else .error .largeInteger

/-- A whole number. -/
def integerAhead : Look := Look.literalThat fun x => (Literal.integer? x).isSome

/-- A number with a point or an exponent. -/
def decimalAhead : Look := Look.literalThat fun x =>
  Look.isNumber x && (Literal.integer? x).isNone

/-- A number that is ahead, with its place and whether it has a sign. -/
def number : Parser (Located (Bool × String)) :=
  located do
    let sign ← op? "-"
    let x ← take? fun
      | .literal x _ => some x
      | _ => none
    return (!sign.isEmpty, x.getD "")

/-- A field by its name or its number. -/
inductive Member where
  | named (name : String)
  | numbered (index : Nat)

namespace Member

/-- Whether the field is given by its name. -/
def isNamed : Member → Bool
  | named _ => true
  | numbered _ => false

/-- The member as written; a number in its shortest form. -/
def token : Member → Token
  | named x => Token.word x
  | numbered n => Token.lit (toString n)

end Member

/-- A field by its name or its number. -/
def member : Parser Member := do
  if ← peek Look.name then return .named (← name)
  else if ← peek integerAhead then
    let x ← number
    match fieldIndex x.val.1 x.val.2 with
    | .ok n => return .numbered n
    | .error fault => fail fault x.span
  else failExpected "identifier or integer"

/-! ## Alternatives -/

/-- Whether a `|` between patterns is ahead. -/
def barAhead : Look := Look.opBut "|" ["||", "|="]

/-- Patterns, each after a `|`. -/
def moreAlternatives (ρ : Rules) : Nat → Parser (List Token)
  | 0 => failTooDeep
  | fuel + 1 => do
    if ← peek barAhead then
      let bar ← op "|"
      let p ← ρ.pattern
      return bar ++ p.tokens ++ (← moreAlternatives ρ fuel)
    else return []

/-- Patterns parted by `|`; one may stand before the first. -/
def alternatives (ρ : Rules) : Parser Pattern := do
  let lead ← op? "|"
  let p ← ρ.pattern
  let more ← moreAlternatives ρ (← ahead)
  if lead.isEmpty && more.isEmpty then return p else return .plain (lead ++ p.tokens ++ more)

/-- Patterns between delimiters, parted by commas. -/
def patterns (d : Delimiter) (one : Parser Pattern) : Parser Token := do
  let ps ← inGroup d (commaList one)
  return Token.enclose d (ps.tokens (Token.op ",") Pattern.tokens)

/-! ## Ranges -/

/-- What the value at an end of a range may begin with. -/
def rangeBoundStarts : List (String × Look) :=
  [("literal", Look.literal), ("identifier", Look.name), ("`::`", Look.op "::"),
   ("`<`", Look.op "<"), ("`self`", Look.keyword "self"), ("`Self`", Look.keyword "Self"),
   ("`super`", Look.keyword "super"), ("`crate`", Look.keyword "crate"),
   ("`const`", Look.keyword "const")]

/-- The value that a range begins or ends with, if one is ahead. -/
def rangeBound (ρ : Rules) : Parser (Option (List Token)) := do
  if (← atEnd) || (← peek fun ts =>
      Look.anyOp ["|", "=", ",", ";"] ts || Look.colon ts || Look.keyword "if" ts) then
    return none
  else if ← peek Look.literal then return some (← literal)
  else if ← peek fun ts => pathAhead ts || Look.op "<" ts then
    return some (← anyPath true ρ).tokens
  else if ← peek (Look.keyword "const") then
    return some [← keyword "const", ← ρ.block true]
  else failNoneOf rangeBoundStarts

/-- The dots of a range, two if `open`: the range may then lack its end. -/
def rangeDots : Parser (Located (Bool × List Token)) :=
  located do
    if ← peek (Look.op "..=") then return (false, ← op "..=")
    else if ← peek (Look.op "...") then
      discard (op "...")
      return (false, Token.op "..=")
    else return (true, ← op "..")

/-- The dots and the end of a range that begins with `start`. -/
def rangeFrom (ρ : Rules) (start : List Token) : Parser Pattern := do
  let dots ← rangeDots
  let (isOpen, ts) := dots.val
  match ← rangeBound ρ with
  | some stop => return .plain (start ++ ts ++ stop)
  | none =>
    if isOpen then return ⟨.openRange dots.span, start ++ ts⟩
    else failExpected "range upper bound"

/-- A range without a start, or dots for what else there is. -/
def rangeTo (ρ : Rules) : Parser Pattern := do
  let dots ← rangeDots
  let (isOpen, ts) := dots.val
  match ← rangeBound ρ with
  | some stop => return ⟨.openRange dots.span, ts ++ stop⟩
  | none => if isOpen then return ⟨.rest, ts⟩ else failExpected "range upper bound"

/-- A value, or a range that begins with one. -/
def valuePattern (ρ : Rules) : Parser Pattern := do
  let start := (← rangeBound ρ).getD []
  if ← peek (Look.op "..") then rangeFrom ρ start else return .plain start

/-! ## Paths -/

/-- A field of a record with a pattern for it, or its name alone. -/
def fieldPattern (ρ : Rules) : Parser (List Token) := do
  let c ← get
  let boxed ← keyword? "box"
  let marks := (← keyword? "ref") ++ (← keyword? "mut")
  let isMarked := !boxed.isEmpty || !marks.isEmpty
  let m ← if isMarked then Member.named <$> name else member
  if (!isMarked && (← peek (Look.op ":"))) || !m.isNamed then
    let colon ← op ":"
    return m.token :: colon ++ (← alternatives ρ).tokens
  else if !boxed.isEmpty then takenSince c
  else return marks ++ [m.token]

/-- Fields of a record; dots for the others end them. -/
def fieldPatterns (ρ : Rules) : Nat → Parser (List Token)
  | 0 => failTooDeep
  | fuel + 1 => do
    if ← atEnd then return []
    let attrs := (← attributeTokens ρ).flatten
    if ← peek (Look.op "..") then return attrs ++ (← op "..")
    let f ← fieldPattern ρ
    if ← atEnd then return attrs ++ f
    let comma ← op ","
    return attrs ++ f ++ comma ++ (← fieldPatterns ρ fuel)

/-- A path as a pattern: a macro call, or the path, perhaps with the patterns of what it holds, or as
the start of a range. -/
def pathPattern (ρ : Rules) : Parser Pattern := do
  let t ← anyPath true ρ
  if t.isPlainPath && (← peek bangAhead) then
    let (_, ts) ← macroArgs
    return .plain (t.tokens ++ ts)
  else if ← peek (Look.group .brace) then
    let fields ← inGroup .brace do fieldPatterns ρ (← ahead)
    return .plain (t.tokens ++ [Token.enclose .brace fields])
  else if ← peek (Look.group .paren) then
    return .plain (t.tokens ++ [← patterns .paren (alternatives ρ)])
  else if ← peek (Look.op "..") then rangeFrom ρ t.tokens
  else return .plain t.tokens

/-! ## All patterns -/

/-- A name as a pattern, by reference or mutable, and what it is bound to. -/
def namePattern (ρ : Rules) : Parser Pattern := do
  let marks := (← keyword? "ref") ++ (← keyword? "mut")
  let x ← if ← peek (Look.keyword "self") then word else name
  let sub ← optionally (Look.op "@") do return (← op "@") ++ (← ρ.pattern).tokens
  return .plain (marks ++ [Token.word x] ++ sub.getD [])

/-- A reference to what a pattern stands for. -/
def referencePattern (ρ : Rules) : Parser Pattern := do
  let sign ← op "&"
  let m ← keyword? "mut"
  return .plain (sign ++ m ++ (← ρ.pattern).tokens)

/-- An element of a slice. -/
def elementPattern (ρ : Rules) : Parser Pattern := do
  let p ← alternatives ρ
  match p.form with
  | .openRange dots => fail .openRange dots
  | _ => return p

/-- Whether a path, a macro call or the start of a range is ahead, and no binding. -/
def pathPatternAhead : Look := fun ts =>
  let goesOn : Look := fun ts =>
    Look.second (Look.anyOp ["::", "!", ".."]) ts || Look.second (Look.group .brace) ts ||
      Look.second (Look.group .paren) ts
  (Look.name ts && goesOn ts) || (Look.keyword "self" ts && Look.second (Look.op "::") ts) ||
    Look.anyOp ["::", "<"] ts || Look.anyKeyword ["Self", "super", "crate"] ts

/-- What a pattern may begin with. -/
def patternStarts : List (String × Look) :=
  [("identifier", Look.name), ("`::`", Look.op "::"), ("`<`", Look.op "<"),
   ("`_`", Look.keyword "_"), ("literal", Look.literal), ("`const`", Look.keyword "const"),
   ("`ref`", Look.keyword "ref"), ("`mut`", Look.keyword "mut"), ("`&`", Look.op "&"),
   ("parentheses", Look.group .paren), ("square brackets", Look.group .bracket),
   ("`..`", Look.op ".."), ("`const`", Look.keyword "const")]

/-- A pattern without alternatives, given the rules one level down. -/
def pattern (ρ : Rules) : Parser Pattern := do
  if ← peek pathPatternAhead then pathPattern ρ
  else if ← peek (Look.keyword "_") then return .plain [← keyword "_"]
  else if ← peek (Look.keyword "box") then
    return ⟨.asWritten, ← asWritten do
      discard (keyword "box")
      discard ρ.pattern⟩
  else if ← peek fun ts => Look.op "-" ts || Look.literal ts || Look.keyword "const" ts then
    valuePattern ρ
  else if ← peek fun ts => Look.anyKeyword ["ref", "mut", "self"] ts || Look.name ts then
    namePattern ρ
  else if ← peek (Look.op "&") then referencePattern ρ
  else if ← peek (Look.group .paren) then
    return .plain [← patterns .paren (alternatives ρ)]
  else if ← peek (Look.group .bracket) then
    return .plain [← patterns .bracket (elementPattern ρ)]
  else if ← peek (Look.opBut ".." ["..."]) then rangeTo ρ
  else failNoneOf patternStarts

end RowDerive.Grammar
