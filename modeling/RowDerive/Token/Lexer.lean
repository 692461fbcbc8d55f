import RowDerive.Token.Basic
import RowDerive.Token.Literal
import RowDerive.Text.Blank
import RowDerive.Text.Escape

/-!
# From text to tokens

Reading goes in two passes. The first cuts the text into lexemes: single tokens and the delimiters of
groups, each with its place; blanks and plain comments fall away, and a documentation comment becomes
the attribute that it stands for. The second closes the groups. Either pass fails on a text that is no
list of tokens.
-/

namespace RowDerive

/-- A piece of the text: a token, or one end of a group. -/
inductive Lexeme where
  | token (t : Token)
  | opening (d : Delimiter) (span : Span)
  | closing (d : Delimiter) (span : Span)

namespace Lexer

/-- The characters of operators. -/
def isPunct (c : Char) : Bool := "~!@#$%^&*-=+|;:,<.>/?'".toList.contains c

/-- Whether an operator goes on at the front; the start of a comment is no operator. -/
def punctAhead : List Char → Bool
  | '/' :: '/' :: _ | '/' :: '*' :: _ => false
  | c :: _ => isPunct c
  | [] => false

/-- What follows a comment between `/*` and `*/`, given what follows its opening. Comments nest. -/
def afterComment (depth : Nat) : List Char → Option (List Char)
  | [] => none
  | [_] => none
  | '/' :: '*' :: cs => afterComment (depth + 1) cs
  | '*' :: '/' :: cs => if depth ≤ 1 then some cs else afterComment (depth - 1) cs
  | _ :: c :: cs => afterComment depth (c :: cs)

/-- The rest of the line, without its end. -/
def lineEnd : List Char → List Char
  | [] => []
  | '\n' :: cs => '\n' :: cs
  | '\r' :: '\n' :: cs => '\n' :: cs
  | _ :: cs => lineEnd cs

/-- The rest of the line as text. -/
def lineText : List Char → List Char
  | [] => []
  | '\n' :: _ => []
  | '\r' :: '\n' :: _ => []
  | c :: cs => c :: lineText cs

/-- The number of bytes of a text. -/
def byteCount : List Char → Nat
  | [] => 0
  | c :: cs => c.utf8Size + byteCount cs

/-- The part of `cs` before its end `rest`. -/
def before (cs rest : List Char) : List Char := cs.take (cs.length - rest.length)

/-- A carriage return has to be followed by the end of a line. -/
def bareReturn : List Char → Bool
  | [] => false
  | '\r' :: cs => cs.head? != some '\n' || bareReturn cs
  | _ :: cs => bareReturn cs

/-- A blank or a plain comment at the front, by what follows it. -/
def afterBlank? : List Char → Option (List Char)
  | '/' :: '/' :: cs =>
    match cs with
    | '/' :: '/' :: _ => some (lineEnd cs)
    | '/' :: _ | '!' :: _ => none
    | _ => some (lineEnd cs)
  | '/' :: '*' :: cs =>
    match cs with
    | '*' :: '/' :: rest => some rest
    | '*' :: '*' :: _ => afterComment 1 cs
    | '*' :: _ | '!' :: _ => none
    | _ => afterComment 1 cs
  | c :: cs => if Text.isBlank c then some cs else none
  | [] => none

/-- A documentation comment. -/
structure Doc where
  /-- Whether it describes what encloses it. -/
  inner : Bool
  text : List Char
  rest : List Char

/-- A documentation comment at the front. -/
def doc? : List Char → Option Doc
  | '/' :: '/' :: '!' :: cs => some ⟨true, lineText cs, lineEnd cs⟩
  | '/' :: '/' :: '/' :: cs =>
    if cs.head? == some '/' then none else some ⟨false, lineText cs, lineEnd cs⟩
  | '/' :: '*' :: '!' :: cs =>
    (afterComment 1 cs).map fun rest => ⟨true, (before cs rest).dropLast.dropLast, rest⟩
  | '/' :: '*' :: '*' :: cs =>
    if cs.head? == some '*' then none
    else (afterComment 1 cs).map fun rest => ⟨false, (before cs rest).dropLast.dropLast, rest⟩
  | _ => none

/-- The attribute that a documentation comment stands for. -/
def Doc.tokens (d : Doc) (span : Span) : List Token :=
  [.punct '#' false span] ++ (if d.inner then [.punct '!' false span] else []) ++
    [.group .bracket
      [.ident "doc" span, .punct '=' false span, .literal (Text.literal (String.ofList d.text)) span]
      span span]

/-- What follows an identifier or keyword at the front. -/
def afterWord? : List Char → Option (List Char)
  | 'r' :: '#' :: cs =>
    match Literal.afterIdent? cs with
    | some rest =>
      if ["_", "super", "self", "Self", "crate"].contains (String.ofList (before cs rest)) then none
      else some rest
    | none => none
  | cs => Literal.afterIdent? cs

/-- Fronts that open a literal and so no identifier, even where the literal is ill-formed. -/
def opensLiteral (cs : List Char) : Bool :=
  ["r\"", "r#\"", "r##", "b\"", "b'", "br\"", "br#", "c\"", "cr\"", "cr#"].any
    fun p => p.toList.isPrefixOf cs

/-- What follows a lifetime at the front, given what follows its mark. -/
def afterLifetime? (cs : List Char) : Option (List Char) :=
  match afterWord? cs with
  | some rest =>
    if rest.head? == some '\'' || (rest.head? == some '#' && !"r#".toList.isPrefixOf cs) then none
    else some rest
  | none => none

/-- A lifetime at the front, given what follows its mark. Where that opens a literal with quotes, the
mark is a token by itself. -/
def lifetime? (pos : Nat) (name : List Char) : Option (Token × List Char) :=
  match afterLifetime? name with
  | none => none
  | some rest =>
    if (Literal.after name).isSome then some (.punct '\'' true ⟨pos, pos + 1⟩, name)
    else if opensLiteral name then none
    else
      let cs := before name rest
      some (.lifetime (String.ofList cs) ⟨pos, pos + 1 + byteCount cs⟩, rest)

/-- The literal that stands for a part of a source that is ill-formed. -/
def errorMark : List Char := "(/*ERROR*/)".toList

/-- A token at the front and what follows it. -/
def leaf? (pos : Nat) (cs : List Char) : Option (Token × List Char) :=
  let spanTo := fun rest => Span.mk pos (pos + byteCount (before cs rest))
  match Literal.after cs with
  | some rest => some (.literal (String.ofList (before cs rest)) (spanTo rest), rest)
  | none =>
    match cs with
    | '\'' :: name => lifetime? pos name
    | c :: rest =>
      if punctAhead cs then some (.punct c (punctAhead rest) (spanTo rest), rest)
      else if opensLiteral cs then none
      else if errorMark.isPrefixOf cs then
        let rest := cs.drop errorMark.length
        some (.literal (String.ofList errorMark) (spanTo rest), rest)
      else (afterWord? cs).map fun rest =>
        (.ident (String.ofList (before cs rest)) (spanTo rest), rest)
    | [] => none

/-- The delimiter that `c` opens. -/
def opened? : Char → Option Delimiter
  | '(' => some .paren
  | '[' => some .bracket
  | '\x7b' => some .brace
  | _ => none

/-- The delimiter that `c` closes. -/
def closed? : Char → Option Delimiter
  | ')' => some .paren
  | ']' => some .bracket
  | '\x7d' => some .brace
  | _ => none

/-- Cuts the text at byte `pos` into lexemes. Every step takes at least one character. -/
def lexemes : (fuel : Nat) → (pos : Nat) → List Char → Option (List Lexeme)
  | 0, _, _ => none
  | _ + 1, _, [] => some []
  | fuel + 1, pos, c :: cs =>
    let skip := fun rest => pos + byteCount (before (c :: cs) rest)
    match afterBlank? (c :: cs) with
    | some rest => lexemes fuel (skip rest) rest
    | none =>
      match doc? (c :: cs) with
      | some d =>
        if bareReturn d.text then none
        else (lexemes fuel (skip d.rest) d.rest).map
          ((d.tokens ⟨pos, skip d.rest⟩).map .token ++ ·)
      | none =>
        let opened := if errorMark.isPrefixOf (c :: cs) then none else opened? c
        match opened, closed? c with
        | some d, _ => (lexemes fuel (pos + 1) cs).map (.opening d ⟨pos, pos + 1⟩ :: ·)
        | none, some d => (lexemes fuel (pos + 1) cs).map (.closing d ⟨pos, pos + 1⟩ :: ·)
        | none, none =>
          match leaf? pos (c :: cs) with
          | some (t, rest) => (lexemes fuel t.span.stop rest).map (.token t :: ·)
          | none => none

/-- A group that is still open: its delimiter, where it opened, and what stood before it. -/
structure Frame where
  delimiter : Delimiter
  opening : Span
  before : List Token

/-- Closes the groups. `done` is the content of the innermost open group so far, last token first. -/
def assemble : (frames : List Frame) → (done : List Token) → List Lexeme → Option (List Token)
  | [], done, [] => some done.reverse
  | _ :: _, _, [] => none
  | frames, done, .token t :: ls => assemble frames (t :: done) ls
  | frames, done, .opening d s :: ls => assemble (⟨d, s, done⟩ :: frames) [] ls
  | [], _, .closing _ _ :: _ => none
  | f :: frames, done, .closing d s :: ls =>
    if f.delimiter = d then assemble frames (.group d done.reverse f.opening s :: f.before) ls
    else none

end Lexer

namespace Token

/-- The tokens of a source, or nothing if it is no list of tokens. A byte order mark is passed over. -/
def lex? (source : String) : Option (List Token) :=
  let lexemes :=
    match source.toList with
    | '\ufeff' :: cs => Lexer.lexemes (cs.length + 1) 3 cs
    | cs => Lexer.lexemes (cs.length + 1) 0 cs
  lexemes.bind (Lexer.assemble [] [])

/-- The word that marks the parentheses after it as an invisible group. -/
def groupMark : String := "__group"

/-- Puts a token in front; if it is the mark, parentheses after it become an invisible group. -/
def consUnmark : Token → List Token → List Token
  | ident x s, group .paren content o c :: rest =>
    if x = groupMark then group .invisible content o c :: rest
    else ident x s :: group .paren content o c :: rest
  | t, rest => t :: rest

mutual

/-- Turns marked parentheses into invisible groups, inside `t`. -/
def unmark : Token → Token
  | group d ts o c => group d (unmarkList ts) o c
  | ident x s => ident x s
  | lifetime x s => lifetime x s
  | punct x j s => punct x j s
  | literal x s => literal x s

/-- Turns marked parentheses into invisible groups. -/
def unmarkList : List Token → List Token
  | [] => []
  | t :: ts => consUnmark t.unmark (unmarkList ts)

end

end Token

end RowDerive
