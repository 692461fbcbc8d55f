import RowDerive.Text.Printable

/-!
# Texts written with escapes

The two places that write a text between double quotes: a value shown for inspection, and a string
literal in generated code. Both leave printable characters alone and escape the rest by a letter or
by the code point in braces. They differ only in NUL before an octal digit.
-/

namespace RowDerive.Text

/-- The digits of `n` in base sixteen, lower case, at least one. -/
def hexDigits (n : Nat) : List Char := Nat.toDigits 16 n

/-- The escape by code point, as in `\u\x7b200b\x7d`. -/
def escapeCodePoint (c : Char) : List Char :=
  ['\\', 'u', '\x7b'] ++ hexDigits c.toNat ++ ['\x7d']

/-- One character of an inspected text. A character that would join the one before it, or that leaves no
mark, is written by code point even where it is printable. -/
def escapeDebug (c : Char) : List Char :=
  match c with
  | '\x00' => ['\\', '0']
  | '\t' => ['\\', 't']
  | '\n' => ['\\', 'n']
  | '\r' => ['\\', 'r']
  | '\\' => ['\\', '\\']
  | '"' => ['\\', '"']
  | c => if isGraphemeExtend c || isFiller c || !isPrintable c then escapeCodePoint c else [c]

/-- A text for inspection, between double quotes. -/
def inspect (s : String) : String :=
  String.ofList (['"'] ++ s.toList.flatMap escapeDebug ++ ['"'])

/-- The characters of a string literal that stands for `s`. NUL before an octal digit takes two
hexadecimal digits, so that the digit is not read with it. -/
def escapeLiteral : List Char → List Char
  | [] => []
  | c :: s =>
    if c == '\x00' && s.head?.any (fun d => '0' ≤ d && d ≤ '7') then
      ['\\', 'x', '0', '0'] ++ escapeLiteral s
    else escapeDebug c ++ escapeLiteral s

/-- The string literal that stands for `s`. -/
def literal (s : String) : String := String.ofList (['"'] ++ escapeLiteral s.toList ++ ['"'])

end RowDerive.Text
