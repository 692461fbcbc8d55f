import RowDerive.Token.Literal
import RowDerive.Text.Escape

/-!
# String literals

A string literal is kept as written, and what it stands for is read off. The literal that is written for
a text stands for that text.
-/

namespace RowDerive

namespace Literal

/-! ## Escapes read back -/

theorem hexValue?_digitChar : ∀ n < 16, hexValue? (Nat.digitChar n) = some n := by decide

theorem digitChar_ne_brace : ∀ n < 16, Nat.digitChar n ≠ '\x7d' := by decide

/-- A hexadecimal digit inside the braces of an escape is added to the value. -/
theorem decode_unicode_digit {d : Nat} (hd : d < 16) (v : Nat) (cs : List Char) :
    decode (.unicode v) (Nat.digitChar d :: cs) = decode (.unicode (16 * v + d)) cs := by
  simp [decode, digitChar_ne_brace d hd, hexValue?_digitChar d hd]

/-- The hexadecimal digits of a number are read as the number. -/
theorem decode_unicode_hexDigits (n : Nat) (cs : List Char) :
    decode (.unicode 0) (Text.hexDigits n ++ cs) = decode (.unicode n) cs := by
  induction n using Nat.strongRecOn generalizing cs with
  | ind n ih =>
    rw [Text.hexDigits, Nat.toDigits_eq_if (by decide)]
    split
    · next h => simp [decode_unicode_digit h]
    · next h =>
      have hd : n % 16 < 16 := Nat.mod_lt _ (by decide)
      have := ih (n / 16) (by omega) (Nat.digitChar (n % 16) :: cs)
      rw [Text.hexDigits] at this
      rw [List.append_assoc, List.singleton_append, this, decode_unicode_digit hd]
      congr 2
      omega

/-- An escape by code point stands for its character. -/
theorem decode_escapeCodePoint (c : Char) (cs : List Char) :
    decode .plain (Text.escapeCodePoint c ++ cs) = c :: decode .plain cs := by
  have brace : hexValue? '\x7b' = none := by decide
  simp only [Text.escapeCodePoint, List.cons_append, List.nil_append, List.append_assoc]
  rw [decode, if_neg (by decide), if_pos (by decide), decode, decode, if_neg (by decide), brace]
  simp only [Option.map_none, Option.getD_none]
  rw [decode_unicode_hexDigits, decode, if_pos (by decide), Char.ofNat_toNat]

/-- One written character stands for itself. -/
theorem decode_escapeDebug (c : Char) (cs : List Char) :
    decode .plain (Text.escapeDebug c ++ cs) = c :: decode .plain cs := by
  unfold Text.escapeDebug
  split
  case h_7 =>
    split
    · exact decode_escapeCodePoint _ cs
    · simp_all [decode]
  all_goals simp [decode]

/-- The written characters of a text stand for the text, up to the quote after them. -/
theorem decode_escapeLiteral (s cs : List Char) :
    decode .plain (Text.escapeLiteral s ++ '"' :: cs) = s := by
  induction s with
  | nil => simp [Text.escapeLiteral, decode]
  | cons c s ih =>
    rw [Text.escapeLiteral]
    split
    · next h =>
      have hc : c = '\x00' := by simp_all
      subst hc
      have zero : hexValue? '0' = some 0 := by decide
      simp [decode, zero, ih]
    · rw [List.append_assoc, decode_escapeDebug, ih]

/-- The literal written for a text stands for it. -/
theorem string?_literal (s : String) : string? (Text.literal s) = some s := by
  simp [string?, Text.literal, decode_escapeLiteral]

end Literal

/-- A string literal as written. -/
structure StringLiteral where
  token : String
  isString : (Literal.string? token).isSome
deriving DecidableEq, Repr

namespace StringLiteral

/-- What the literal stands for. -/
def value (s : StringLiteral) : String := (Literal.string? s.token).get s.isString

/-- The literal that the text of a token is, if it is one. -/
def ofToken? (token : String) : Option StringLiteral :=
  if h : (Literal.string? token).isSome then some ⟨token, h⟩ else none

/-- The literal that is written for a text. -/
def ofText (s : String) : StringLiteral := ⟨Text.literal s, by simp [Literal.string?_literal]⟩

@[simp] theorem string?_token (s : StringLiteral) : Literal.string? s.token = some s.value := by
  simp [value]

@[simp] theorem token_ofText (s : String) : (ofText s).token = Text.literal s := rfl

@[simp] theorem value_ofText (s : String) : (ofText s).value = s := by
  simp [value, ofText, Literal.string?_literal]

end StringLiteral

end RowDerive
