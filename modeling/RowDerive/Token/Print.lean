import RowDerive.Token.Basic

/-!
# Tokens as text

Tokens are parted by one blank, except after a joint character of an operator. Parentheses and
brackets touch what they hold, braces do not, and an invisible group shows its content alone.
-/

namespace RowDerive.Token

/-- Whether the next token follows without a blank. -/
def isJoint : Token → Bool
  | punct _ joint _ => joint
  | _ => false

mutual

/-- The text of one token. -/
def text : Token → String
  | ident x _ => x
  | lifetime x _ => "'" ++ x
  | punct c _ _ => c.toString
  | literal x _ => x
  | group .paren ts _ _ => "(" ++ listText ts ++ ")"
  | group .bracket ts _ _ => "[" ++ listText ts ++ "]"
  | group .brace ts _ _ => "\x7b " ++ listText ts ++ (if ts.isEmpty then "\x7d" else " \x7d")
  | group .invisible ts _ _ => listText ts

/-- The text of a list of tokens. -/
def listText : List Token → String
  | [] => ""
  | t :: ts =>
    match ts with
    | [] => t.text
    | _ :: _ => t.text ++ (if t.isJoint then "" else " ") ++ listText ts

end

@[simp] theorem listText_nil : listText [] = "" := rfl

@[simp] theorem listText_singleton (t : Token) : listText [t] = t.text := by simp [listText]

end RowDerive.Token
