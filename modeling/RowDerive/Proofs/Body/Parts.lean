import RowDerive.Body.Print
import RowDerive.Token.Print
import Mathlib.Data.List.Basic

/-!
# Parts of bodies

The tokens of a body are those of its statements, one after the other: what makes the row, what makes
each adapter, what puts each property, and the row itself.
-/

namespace RowDerive

namespace Body

/-- The adapters are made one after the other, each under its number. -/
theorem adapterListTokens_eq_flatten (i : Nat) (ts : List Ty) :
    adapterListTokens i ts = (ts.mapIdx fun j t => adapterTokens (i + j) t).flatten := by
  induction ts generalizing i with
  | nil => rfl
  | cons t ts ih =>
      rw [adapterListTokens, ih, List.mapIdx_cons, List.flatten_cons, Nat.add_zero]
      congr 3
      funext j t
      rw [Nat.add_right_comm, Nat.add_assoc]

/-- The statements of a body up to the row itself, each by its tokens. -/
def parts (b : Body) : List (List Token) :=
  rowTokens b.statements.length ::
    (b.adapters.mapIdx adapterTokens ++ b.statements.map Statement.tokens)

theorem tokens_eq_flatten (b : Body) :
    b.tokens = b.parts.flatten ++ [Token.word "values"] := by
  have hadapters := adapterListTokens_eq_flatten 0 b.adapters
  simp only [Nat.zero_add] at hadapters
  simp [tokens, parts, hadapters, List.flatMap_def]

/-- All statements of a body, each by its tokens. -/
def lines (b : Body) : List (List Token) := b.parts ++ [[Token.word "values"]]

theorem flatten_lines (b : Body) : b.lines.flatten = b.tokens := by
  simp [lines, tokens_eq_flatten]

theorem lines_eq (b : Body) :
    b.lines = rowTokens b.statements.length ::
      (b.adapters.mapIdx adapterTokens ++ b.statements.map Statement.tokens ++
        [[Token.word "values"]]) := by
  simp [lines, parts]

end Body

/-! ## Parts as text -/

open Token

/-- The row can be written to if there is something to write. -/
theorem Body.listText_rowTokens (size : Nat) :
    listText (rowTokens size) = "let " ++ (if size = 0 then "" else "mut ") ++
      "values = :: content_values :: ContentValues :: with_capacity (" ++ toString size ++
        "usize) ;" := by
  apply String.toList_inj.1
  have hsuffix : toString "usize" = "usize" := rfl
  by_cases hsize : size = 0 <;>
    simp [hsize, hsuffix, rowTokens, call, rootPath, sepBy, op, opChars, parens, enclose, word, lit,
      listText, text, isJoint]

/-- What stands before the type of an adapter, and what after it. -/
theorem Body.exists_adapterTokens (i : Nat) (t : Ty) :
    ∃ front back, adapterTokens i t = front ++ t.tokens ++ back ∧
      listText front = "let " ++ adapterName i ++ " = <" ∧
      listText back = "as :: core :: default :: Default > :: default () ;" := by
  refine ⟨[word "let", word (adapterName i)] ++ op "=" ++ op "<",
    [word "as"] ++ rootPath ["core", "default", "Default"] ++ op ">" ++ op "::" ++
      call [word "default"] [] ++ op ";", ?_, ?_, by decide⟩
  · simp [adapterTokens]
  · apply String.toList_inj.1
    simp [op, opChars, word, listText, text, isJoint]

namespace Statement

theorem listText_adapted (i : Nat) (k : StringLiteral) (f : Name) :
    listText (adapted i k f).tokens =
      ":: content_values :: ColumnTypeAdapter :: to_content_values (& " ++ adapterName i ++
        " , & mut values , " ++ k.token ++ " , & self . " ++ f.text ++ " ,) ;" := by
  apply String.toList_inj.1
  simp [tokens, rootPath, sepBy, op, opChars, parens, enclose, word, lit, selfField, listText, text,
    isJoint]

theorem listText_direct (k : StringLiteral) (f : Name) (borrow : Bool) :
    listText (direct k f borrow).tokens =
      "values . put (" ++ k.token ++ " , " ++ (if borrow then "& " else "") ++ "self . " ++ f.text ++
        ") ;" := by
  apply String.toList_inj.1
  cases borrow <;>
    simp [tokens, methodCall, call, sepBy, op, opChars, parens, enclose, word, lit, selfField,
      listText, text, isJoint]

set_option maxRecDepth 2000 in
theorem listText_optional (k : StringLiteral) (f : Name) (deref : Bool) :
    listText (optional k f deref).tokens =
      "\x7b let value = & self . " ++ f.text ++ " ; match value \x7b " ++
        ":: core :: option :: Option :: Some (value) => values . put (" ++ k.token ++ " , " ++
          (if deref then "* " else "") ++ "value) , " ++
        ":: core :: option :: Option :: None => values . put_null (" ++ k.token ++ ") , \x7d \x7d" := by
  apply String.toList_inj.1
  cases deref <;>
    simp [tokens, methodCall, call, rootPath, sepBy, op, opChars, parens, enclose, word, lit, selfField,
      listText, text, isJoint]

end Statement

end RowDerive
