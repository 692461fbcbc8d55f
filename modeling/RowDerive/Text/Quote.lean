import RowDerive.Text.Blank
import RowDerive.Text.Escape

/-!
# Texts quoted for a command line

A printed row shows each key and each text in one of three forms: as it is, between single quotes,
or between double quotes with escapes. The form is the first of these that keeps the text in one
piece.
-/

namespace RowDerive.Text

/-- Characters that part a bare word, and stand as they are between single quotes. -/
def isShellSpecial (c : Char) : Bool :=
  "\" ()&~$#\x60;*?![><|".toList.contains c

/-- Characters that only the double-quoted form can hold. -/
def needsEscape (c : Char) : Bool :=
  c == '\'' || c == '\\' || (c != ' ' && (isBlank c || isSeparator c || isInvisible c))

/-- The escape of a character that does not show. -/
def escapeInvisible (c : Char) : List Char :=
  match c with
  | '\x07' => ['\\', 'a']
  | '\x08' => ['\\', 'b']
  | '\x0b' => ['\\', 'v']
  | '\x0c' => ['\\', 'f']
  | '\x1b' => ['\\', 'e']
  | '\t' => ['\\', 't']
  | '\r' => ['\\', 'r']
  | '\n' => ['\\', 'n']
  | c => escapeCodePoint c

/-- One character between double quotes. -/
def escapeQuoted (c : Char) : List Char :=
  match c with
  | '"' => ['\\', '"']
  | '\\' => ['\\', '\\']
  | ' ' => [' ']
  | '$' => ['\\', '$']
  | '\x60' => ['\\', '\x60']
  | c => if isInvisible c || isSeparator c then escapeInvisible c else [c]

/-- The three written forms of a text. -/
inductive QuoteStyle where
  | bare
  | single
  | double
deriving DecidableEq, Repr

/-- The form that `cs` is written in. -/
def quoteStyle (cs : List Char) : QuoteStyle :=
  if cs.any needsEscape then .double
  else if cs.any isShellSpecial then .single
  else .bare

/-- The characters of `cs` in its form. -/
def quoteChars (cs : List Char) : List Char :=
  match quoteStyle cs with
  | .bare => cs
  | .single => ['\''] ++ cs ++ ['\'']
  | .double => ['"'] ++ cs.flatMap escapeQuoted ++ ['"']

/-- A text as a printed row shows it. -/
def quote (s : String) : String := String.ofList (quoteChars s.toList)

end RowDerive.Text
