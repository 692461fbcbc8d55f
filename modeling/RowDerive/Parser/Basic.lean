import RowDerive.Token.Print
import RowDerive.Token.StringLiteral

/-!
# Reading tokens

A reader takes tokens from the front of a cursor and stops at its first fault. An invisible group is
no obstacle to it: wherever a token is looked for, the invisible groups at the front are opened. What
a reader returns holds no places; a reader that needs one asks for it by `located`.

Tokens that are left over in a group do not stop a reader. The first of them is noted in the cursor, and
counts once all else is read; so a fault that comes later in the source is reported before it.
-/

namespace RowDerive

/-- Why tokens cannot be read as what is expected. -/
inductive SyntaxFault where
  /-- Something else stands here. -/
  | expected (what : String)
  /-- The tokens end here. -/
  | ended (what : String)
  /-- None of several things stands here, or the tokens end. -/
  | noneOf (atEnd : Bool) (what : List String)
  /-- A keyword stands in the place of a name. -/
  | keyword (word : String)
  /-- Tokens are left over between delimiters. -/
  | leftOver (within : Delimiter)
  /-- A statement ends without its semicolon. -/
  | unfinishedStatement
  /-- A literal stands where a setting is due. -/
  | nestedLiteral
  /-- What stands where a setting is due is no name. -/
  | nestedToken
  /-- An attribute in the place of the value of an attribute. -/
  | nestedAttribute
  | secondReceiver
  /-- A receiver stands after another parameter. -/
  | lateReceiver
  /-- The bounds of an object are lifetimes only. -/
  | lifetimesAlone
  /-- No bound of an anonymous type is a trait. -/
  | noTrait
  /-- Captures stand among bounds that have none. -/
  | misplacedCaptures
  /-- `const`, or `[const]` if `conditional`, stands before a bound that cannot have it. -/
  | misplacedConst (conditional : Bool)
  /-- Lifetimes are bound over a trait that is perhaps not meant. -/
  | relaxedBinder
  /-- A `where` takes parameters. -/
  | whereParameters
  /-- The number of a field has a suffix. -/
  | suffixedInteger
  /-- The number of a field has a sign. -/
  | signedInteger
  | largeInteger
  /-- A range stands in a slice without parentheses, and lacks an end. -/
  | openRange
  /-- A range that has no start has attributes. -/
  | attributedRange
  | chainedComparison
  /-- A cast is followed by something that binds tighter. -/
  | castFollowed (what : String)
  /-- A labelled expression is the value of a `break`. -/
  | labelledValue
  /-- An implementation that is none, but of no trait. -/
  | negativeInherent
  /-- An attribute without the arguments that it has to have. -/
  | noArguments (path : String)
  /-- An attribute with `=` in the place of its arguments. -/
  | valueArguments (path : String)
  /-- The bound on the length or depth of what is read is used up. -/
  | tooDeep
deriving DecidableEq, Repr

namespace SyntaxFault

/-- The message that none of `what` stands here. -/
def alternatives : List String → String
  | [] => "unexpected token"
  | [x] => s!"expected {x}"
  | [x, y] => s!"expected {x} or {y}"
  | what => "expected one of: " ++ ", ".intercalate what

def message : SyntaxFault → String
  | expected what => s!"expected {what}"
  | ended what => s!"unexpected end of input, expected {what}"
  | noneOf false what => alternatives what
  | noneOf true [] => "unexpected end of input"
  | noneOf true what => "unexpected end of input, " ++ alternatives what
  | keyword word => s!"expected identifier, found keyword `{word}`"
  | leftOver .paren => "unexpected token, expected `)`"
  | leftOver .bracket => "unexpected token, expected `]`"
  | leftOver .brace => "unexpected token, expected `\x7d`"
  | leftOver .invisible => "unexpected token"
  | unfinishedStatement => "unexpected token, expected `;`"
  | nestedLiteral => "unexpected literal in nested attribute, expected ident"
  | nestedToken => "unexpected token in nested attribute, expected ident"
  | nestedAttribute => "unexpected attribute inside of attribute"
  | secondReceiver => "unexpected second method receiver"
  | lateReceiver => "unexpected method receiver"
  | lifetimesAlone => "at least one trait is required for an object type"
  | noTrait => "at least one trait must be specified"
  | misplacedCaptures => "`use<...>` precise capturing syntax is not allowed here"
  | misplacedConst true => "`[const]` is not allowed here"
  | misplacedConst false => "`const` is not allowed here"
  | relaxedBinder => "`for<...>` binder not allowed with `?` trait polarity modifier"
  | whereParameters => "generic parameters on `where` clauses are reserved for future use"
  | suffixedInteger => "expected unsuffixed integer"
  | signedInteger => "invalid digit found in string"
  | largeInteger => "number too large to fit in target type"
  | openRange => "range pattern is not allowed unparenthesized inside slice pattern"
  | attributedRange => "attributes are not allowed on range expressions starting with `..`"
  | chainedComparison => "comparison operators cannot be chained"
  | castFollowed what => s!"casts cannot be followed by {what}"
  | labelledValue => "parentheses required"
  | negativeInherent => "inherent impls cannot be negative"
  | noArguments path => s!"expected attribute arguments in parentheses: #[{path}(...)]"
  | valueArguments path => s!"expected parentheses: #[{path}(...)]"
  | tooDeep => "nested too deeply"

end SyntaxFault

/-- A fault and the place it is reported at. -/
structure SyntaxError where
  fault : SyntaxFault
  span : Span
deriving DecidableEq, Repr

namespace Token

mutual

/-- The first token inside the invisible groups that `t` is, with what follows it there; `t` itself if
it is none. -/
def shown? : Token → Option (Token × List Token)
  | group .invisible ts _ _ => firstShown? ts
  | ident x s => some (ident x s, [])
  | lifetime x s => some (lifetime x s, [])
  | punct c j s => some (punct c j s, [])
  | literal x s => some (literal x s, [])
  | group d ts o c => some (group d ts o c, [])

/-- The first token that no invisible group holds, once those at the front are opened, with what follows
it. -/
def firstShown? : List Token → Option (Token × List Token)
  | [] => none
  | t :: ts =>
    match shown? t with
    | some (c, cs) => some (c, cs ++ ts)
    | none => firstShown? ts

end

/-- Opens the invisible groups at the front. -/
def reveal (ts : List Token) : List Token :=
  match firstShown? ts with
  | some (t, ts) => t :: ts
  | none => []

mutual

/-- The first token of `t` that counts as left over between `d`, and the delimiters that hold it. -/
def leftOver? (d : Delimiter) : Token → Option (Located Delimiter)
  | group .invisible ts _ _ => firstLeftOver? .invisible ts
  | group _ _ o c => some ⟨d, o.cover c⟩
  | lifetime x s => some ⟨d, (lifetime x s).extent⟩
  | ident _ s | punct _ _ s | literal _ s => some ⟨d, s⟩

/-- The first token that counts as left over between `d`; an invisible group that holds nothing does
not. -/
def firstLeftOver? (d : Delimiter) : List Token → Option (Located Delimiter)
  | [] => none
  | t :: ts => (leftOver? d t).or (firstLeftOver? d ts)

end

mutual

/-- What of `t` is among the first `n` tokens, as `size` counts them: an invisible group that goes on
beyond them is opened. -/
def firstOf (n : Nat) : Token → List Token
  | group d ts o c =>
    if d = .invisible && n ≤ sizeList ts then listFirst (n - 1) ts else [group d ts o c]
  | ident x s => [ident x s]
  | lifetime x s => [lifetime x s]
  | punct x j s => [punct x j s]
  | literal x s => [literal x s]

/-- The first `n` tokens, as `sizeList` counts them. -/
def listFirst (n : Nat) : List Token → List Token
  | [] => []
  | t :: ts => if n = 0 then [] else firstOf n t ++ listFirst (n - t.size) ts

end

end Token

/-- Where a reader stands. -/
structure Cursor where
  rest : List Token
  /-- Where the end of the tokens is reported: the closing delimiter of the group read. -/
  close : Span
  /-- The place of the token taken last. -/
  last : Span
  /-- The first token that was left over in a group, by its place and what delimits the group. -/
  leftOver : Option (Located Delimiter)

/-- A reader of tokens. -/
abbrev Parser := StateT Cursor (Except SyntaxError)

namespace Cursor

/-- At the front of `ts`, which end at `close`. -/
def ofTokens (ts : List Token) (close : Span) : Cursor := ⟨ts, close, close, none⟩

/-- The first token that is left over if nothing else is read. -/
def remainder? (c : Cursor) : Option (Located Delimiter) :=
  c.leftOver.or (Token.firstLeftOver? .invisible c.rest)

end Cursor

namespace Parser

variable {α β : Type}

/-- A test on the tokens ahead. -/
abbrev Look := List Token → Bool

def fail (fault : SyntaxFault) (span : Span) : Parser α := throw ⟨fault, span⟩

/-- The place of the next token, or that of the end. -/
def here (c : Cursor) : Span :=
  match c.rest with
  | [] => c.close
  | t :: _ => t.front

/-- Fails at the next token. -/
def failHere (fault : SyntaxFault) : Parser α := do fail fault (here (← get))

/-- Fails because `what` is not next. -/
def failExpected (what : String) : Parser α := do
  let c ← get
  fail (if c.rest.isEmpty then .ended what else .expected what) (here c)

/-- Fails because none of the things named is next. Of those, some may be there after all and have been
refused for what follows them; they are not named. -/
def failNoneOf (what : List (String × Look)) : Parser α := do
  let c ← get
  let missing := (what.filter fun x => !x.2 c.rest).map Prod.fst
  let place :=
    match c.rest, missing with
    | t :: _, [] => t.extent
    | _, _ => here c
  fail (.noneOf c.rest.isEmpty missing) place

/-- Fails because a bound is used up. The bounds are counted from the tokens ahead, so that this does
not occur; it is kept apart from the other faults so that a greater bound changes no answer but this
one. -/
def failTooDeep : Parser α := failHere .tooDeep

/-- Whether the tokens are at their end. -/
def atEnd : Parser Bool := do return (← get).rest.isEmpty

def peek (p : Look) : Parser Bool := do return p (← get).rest

/-- Takes the next token if `f` knows it. -/
def take? (f : Token → Option α) : Parser (Option α) := do
  let c ← get
  match Token.reveal c.rest with
  | [] => return none
  | t :: ts =>
    match f t with
    | some a =>
      set { c with rest := ts, last := t.span }
      return some a
    | none => return none

/-- Reads what `p` reads if `cond` holds ahead. -/
def optionally (cond : Look) (p : Parser α) : Parser (Option α) := do
  if ← peek cond then return some (← p) else return none

/-- Reads with `p`, or nothing where `p` fails. -/
def attempt (p : Parser α) : Parser (Option α) := fun c =>
  match p c with
  | .ok (a, c) => .ok (some a, c)
  | .error e => if e.fault = .tooDeep then .error e else .ok (none, c)

/-- What `p` would read here, if it would not fail. -/
def foresee (p : Parser α) : Parser (Option α) := fun c =>
  match attempt p c with
  | .ok (a, _) => .ok (a, c)
  | .error e => .error e

/-! ## Looks -/

namespace Look

/-- The test `p` on the next token. -/
def next (p : Token → Bool) : Look := fun ts => (Token.reveal ts).head?.any p

/-- Whether an invisible group is next. -/
def invisible : Look
  | .group .invisible _ _ _ :: _ => true
  | _ => false

/-- The test `p` on the second token and what follows it. -/
def second (p : Look) : Look := fun ts =>
  match Token.reveal ts with
  | [] => false
  | _ :: ts => p ts

/-- The test `p` on the third token and what follows it. -/
def third (p : Look) : Look := second (second p)

/-- The characters of an operator, each but the last joint with the next. -/
def opChars : List Char → Look
  | [], _ => true
  | [c], .punct d _ _ :: _ => c == d
  | c :: cs, .punct d joint _ :: ts => c == d && joint && opChars cs ts
  | _ :: _, _ => false

/-- The operator `s`, or one that begins with it. -/
def op (s : String) : Look := fun ts => opChars s.toList (Token.reveal ts)

/-- The operator `s`, or one that begins with it, and none of `others`. -/
def opBut (s : String) (others : List String) : Look := fun ts =>
  op s ts && !others.any (op · ts)

/-- One of the operators. -/
def anyOp (ss : List String) : Look := fun ts => ss.any (op · ts)

def keyword (k : String) : Look := next fun
  | .ident x _ => x == k
  | _ => false

/-- One of the keywords. -/
def anyKeyword (ks : List String) : Look := fun ts => ks.any (keyword · ts)

/-- Words that are no names. -/
def keywords : List String :=
  ["_", "abstract", "as", "async", "await", "become", "box", "break", "const", "continue", "crate",
   "do", "dyn", "else", "enum", "extern", "false", "final", "fn", "for", "if", "impl", "in", "let",
   "loop", "macro", "match", "mod", "move", "mut", "override", "priv", "pub", "ref", "return", "Self",
   "self", "static", "struct", "super", "trait", "true", "try", "type", "typeof", "unsafe", "unsized",
   "use", "virtual", "where", "while", "yield"]

/-- A name. -/
def name : Look := next fun
  | .ident x _ => !keywords.contains x
  | _ => false

/-- A name or a keyword. -/
def word : Look := next fun
  | .ident _ _ => true
  | _ => false

def lifetime : Look := next fun
  | .lifetime _ _ => true
  | _ => false

/-- A group with delimiters that show. -/
def group (d : Delimiter) : Look := next fun
  | .group e _ _ _ => d == e
  | _ => false

/-- A number literal, which may have a sign in front. -/
def isNumber (text : String) : Bool := text.toList.head?.any Char.isDigit

/-- A literal for which `p` holds, which may have a sign in front if it is a number. -/
def literalThat (p : String → Bool) : Look := fun ts =>
  match Token.reveal ts with
  | .literal x _ :: _ => p x
  | .punct '-' _ _ :: ts =>
    match Token.reveal ts with
    | .literal x _ :: _ => isNumber x && p x
    | _ => false
  | _ => false

/-- A literal, a truth value or a number with a sign. -/
def literal : Look := fun ts =>
  literalThat (fun _ => true) ts || anyKeyword ["true", "false"] ts

def stringLiteral : Look := next fun
  | .literal x _ => (StringLiteral.ofToken? x).isSome
  | _ => false

/-- A colon that begins no path. -/
def colon : Look := opBut ":" ["::"]

/-- A dot that begins no range. -/
def dot : Look := opBut "." [".."]

end Look

/-! ## Tokens -/

/-- Takes the operator `s`; returns its characters. A fault is reported at the character that stands in
its place, even inside an invisible group. -/
def op (s : String) : Parser (List Token) := do
  let c ← get
  let ts := Token.reveal c.rest
  if Look.opChars s.toList ts then
    let taken := ts.take s.length
    set { c with rest := ts.drop s.length, last := (taken.getLast?.map Token.span).getD c.last }
    return Token.op s
  else
    let place :=
      match ts with
      | .punct d _ span :: _ => if d = '\'' then here c else span
      | _ => here c
    fail (.expected s!"`{s}`") place

/-- Takes the operator `s` if it is ahead. -/
def op? (s : String) : Parser (List Token) := do
  if ← peek (Look.op s) then op s else return []

def keyword (k : String) : Parser Token := do
  match ← take? fun t => if Look.keyword k [t] then some (Token.word k) else none with
  | some t => return t
  | none => failExpected s!"`{k}`"

/-- Takes the keyword `k` if it is ahead. -/
def keyword? (k : String) : Parser (List Token) := do
  if ← peek (Look.keyword k) then return [← keyword k] else return []

/-- Takes a name or a keyword. -/
def word : Parser String := do
  let found ← take? fun
    | .ident x _ => some x
    | _ => none
  match found with
  | some x => return x
  | none => failExpected "ident"

/-- Takes a name. -/
def name : Parser String := do
  if ← peek Look.name then word
  else if ← peek Look.word then
    let c ← get
    let x ← word
    fail (.keyword x) (here c)
  else failExpected "identifier"

/-- Takes a lifetime; returns its name. -/
def lifetime : Parser String := do
  let found ← take? fun
    | .lifetime x _ => some x
    | _ => none
  match found with
  | some x => return x
  | none => failExpected "lifetime"

/-- Takes a lifetime if one is ahead. -/
def lifetime? : Parser (List Token) := do
  if ← peek Look.lifetime then return [Token.tick (← lifetime)] else return []

/-- Takes a literal, a truth value or a number with a sign. -/
def literal : Parser (List Token) := do
  if ← peek Look.literal then
    let sign ← op? "-"
    let t ← take? fun t => some t.erase
    return sign ++ t.toList
  else failExpected "literal"

/-- Takes a string literal. -/
def stringLiteral : Parser StringLiteral := do
  let found ← take? fun
    | .literal x _ => StringLiteral.ofToken? x
    | _ => none
  match found with
  | some s => return s
  | none => failExpected "string literal"

/-! ## Groups -/

/-- The name of a delimiter in a fault. -/
def delimiterName : Delimiter → String
  | .paren => "parentheses"
  | .bracket => "square brackets"
  | .brace => "curly braces"
  | .invisible => "invisible group"

/-- Reads the content of a group with `p`. Returned is also what `p` leaves over, which the caller has
to `note` once it has read what follows the group. -/
def openGroup (d : Delimiter) (p : Parser α) : Parser (α × Option (Located Delimiter)) := do
  let c ← get
  let ts := if d = .invisible then c.rest else Token.reveal c.rest
  match ts with
  | .group e content opening closing :: rest =>
    if e = d then
      match p ⟨content, closing, opening, c.leftOver⟩ with
      | .ok (a, inner) =>
        set { c with rest := rest, last := closing, leftOver := inner.leftOver }
        return (a, Token.firstLeftOver? d inner.rest)
      | .error e => throw e
    else failExpected (delimiterName d)
  | _ => failExpected (delimiterName d)

/-- Notes what is left over, unless something was left over before. -/
def note (left : Option (Located Delimiter)) : Parser Unit :=
  modify fun c => { c with leftOver := c.leftOver.or left }

/-- Reads the content of a group with `p` and notes what is left over. -/
def inGroup (d : Delimiter) (p : Parser α) : Parser α := do
  let (a, left) ← openGroup d p
  note left
  return a

/-! ## Lists -/

/-- A list as read: its items, and whether a separator stands after the last. -/
structure Listed (α : Type) where
  items : List α
  trailing : Bool
deriving DecidableEq, Repr

namespace Listed

/-- The tokens of a list, given those of its items. -/
def tokens (sep : List Token) (f : α → List Token) (l : Listed α) : List Token :=
  Token.sepBy sep (l.items.map f) ++ (if l.trailing then sep else [])

end Listed

/-- Reads items parted by `sep` until `done` holds ahead; a separator may stand after the last. -/
def listUntil (sep : String) (done : Parser Bool) (item : Parser α) : Nat → Parser (Listed α)
  | 0 => failTooDeep
  | fuel + 1 => do
    if ← done then return ⟨[], false⟩
    let a ← item
    if ← done then return ⟨[a], false⟩
    discard (op sep)
    let l ← listUntil sep done item fuel
    return ⟨a :: l.items, l.items.isEmpty || l.trailing⟩

/-- Reads items as long as `cond` holds ahead. -/
def manyWhile (cond : Look) (item : Parser α) : Nat → Parser (List α)
  | 0 => failTooDeep
  | fuel + 1 => do
    if ← peek cond then
      let a ← item
      return a :: (← manyWhile cond item fuel)
    else return []

/-- The number of tokens ahead, a bound for the items of a list. -/
def ahead : Parser Nat := do return Token.sizeList (← get).rest + 1

/-- Items parted by commas, to the end of the tokens. -/
def commaList (item : Parser α) : Parser (Listed α) := do
  listUntil "," atEnd item (← ahead)

/-- Items parted by commas, up to `>`. -/
def angleList (item : Parser α) : Parser (Listed α) := do
  listUntil "," (peek (Look.op ">")) item (← ahead)

/-! ## Places -/

/-- The place of the first token ahead. If `opened`, invisible groups are opened first. -/
def startOf (opened : Bool) (c : Cursor) : Nat :=
  match if opened then Token.reveal c.rest else c.rest with
  | [] => c.close.start
  | t :: _ => t.span.start

/-- Reads with `p`; returns also the place from the first token taken to the last. -/
def located (p : Parser α) : Parser (Located α) := do
  let c ← get
  let a ← p
  return ⟨a, startOf true c, (← get).last.stop⟩

/-- The tokens that were taken since `c`, as they stood in the source: as many as are no longer ahead.
-/
def takenSince (c : Cursor) : Parser (List Token) := do
  let taken := Token.sizeList c.rest - Token.sizeList (← get).rest
  return (Token.listFirst taken c.rest).map Token.erase

/-- Reads with `p`; returns the tokens taken, as they stood in the source. -/
def asWritten (p : Parser α) : Parser (List Token) := do
  let c ← get
  discard p
  takenSince c

/-- Reads all of `ts` with `p`. -/
def runAll (p : Parser α) (ts : List Token) (close : Span) : Except SyntaxError α :=
  match p (.ofTokens ts close) with
  | .ok (a, c) =>
    match c.remainder? with
    | none => .ok a
    | some left => .error ⟨.leftOver left.val, left.span⟩
  | .error e => .error e

end Parser

end RowDerive
