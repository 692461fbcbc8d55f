import RowDerive.Body.Print
import RowDerive.Code.Basic

/-!
# Bodies read as code

What is printed for each part of a body is read as the one line that it is meant as, whatever its key,
its field and the type of its adapter are.
-/

namespace RowDerive

open Token

namespace Code

variable {us vs : List Token}

/-- What stands in front of the last `as` is found, whatever it is. -/
theorem atLastAs?_append (h : atLastAs? vs = none) (us : List Token) :
    atLastAs? (us ++ ([word "as"] ++ vs)) = some (us, vs) := by
  induction us with
  | nil => simp [atLastAs?, h, word]
  | cons u us ih =>
      have hcons : ∀ ts, atLastAs? ts = some (us, vs) → atLastAs? (u :: ts) = some (u :: us, vs) := by
        intro ts h
        simp [atLastAs?, h]
      exact hcons _ ih

/-- A command with a semicolon is a line. -/
theorem Line.read?_one (h : ∀ d ts o c, us.head? ≠ some (.group d ts o c)) :
    Line.read? (us ++ op ";") = (Command.read? us).map .one := by
  have hended : ended? (us ++ op ";") = some us := by
    have hop : op ";" = [.punct ';' false .nowhere] := rfl
    simp [ended?, hop]
  cases us with
  | nil => rfl
  | cons u us =>
      rw [List.cons_append, Line.read?.eq_2, ← List.cons_append, hended, Option.bind_some]
      intro ts o c hgroup
      obtain ⟨rfl, -⟩ := List.cons.inj hgroup
      exact h _ _ _ _ rfl

theorem Command.read?_let (x : String) (us : List Token) :
    Command.read? ([word "let", word x] ++ op "=" ++ us) = (Expr.read? us).map (.bind false x) :=
  Command.read?.eq_1 ..

/-- What a type has from a trait is read whatever the type is. -/
theorem Expr.read?_provided (us : List Token) :
    Expr.read? (op "<" ++ us ++ [word "as"] ++ rootPath ["core", "default", "Default"] ++ op ">" ++
      op "::" ++ Token.call [word "default"] []) =
        some (.provided us ["core", "default", "Default"] "default") := by
  have hnone : atLastAs? (rootPath ["core", "default", "Default"] ++ op ">" ++ op "::" ++
      Token.call [word "default"] []) = none := rfl
  have hread : ∀ ws, Expr.read? (op "<" ++ ws) = Expr.provided? ws := fun _ => Expr.read?.eq_2 ..
  have hsplit := atLastAs?_append hnone us
  simp only [List.append_assoc] at hsplit ⊢
  rw [hread]
  unfold Expr.provided?
  rw [hsplit]
  rfl

end Code

open Code

/-! ## Lines of a body -/

namespace Body

/-- The line that makes the row. -/
def rowLine (size : Nat) : Line :=
  .one (.bind (size ≠ 0) "values"
    (.call ["content_values", "ContentValues", "with_capacity"] [.literal s!"{size}usize"]))

theorem read?_rowTokens (size : Nat) : Line.read? (rowTokens size) = some (rowLine size) := by
  cases size <;> rfl

/-- The line that makes an adapter. -/
def adapterLine (i : Nat) (t : Ty) : Line :=
  .one (.bind false (adapterName i) (.provided t.tokens ["core", "default", "Default"] "default"))

theorem read?_adapterTokens (i : Nat) (t : Ty) :
    Line.read? (adapterTokens i t) = some (adapterLine i t) := by
  have htokens : adapterTokens i t = [word "let", word (adapterName i)] ++ op "=" ++
      (op "<" ++ t.tokens ++ [word "as"] ++ rootPath ["core", "default", "Default"] ++ op ">" ++
        op "::" ++ call [word "default"] []) ++ op ";" := by simp [adapterTokens]
  rw [htokens, Line.read?_one (by simp [word]), Command.read?_let, Expr.read?_provided]
  rfl

end Body

namespace Statement

/-- The line that a statement is. -/
def line : Statement → Line
  | adapted i k f =>
    .one (.eval (.call ["content_values", "ColumnTypeAdapter", "to_content_values"]
      [.borrow false (adapterName i), .borrow true "values", .literal k.token, .borrowField f.text]))
  | optional k f deref =>
    .block
      [.bind false "value" (.operand (.borrowField f.text)),
        .choose "value"
          [⟨["core", "option", "Option", "Some"], some "value",
              .method "values" "put" [.literal k.token, if deref then .deref "value" else .name "value"]⟩,
            ⟨["core", "option", "Option", "None"], none,
              .method "values" "put_null" [.literal k.token]⟩]]
  | direct k f borrow =>
    .one (.eval (.method "values" "put"
      [.literal k.token, if borrow then .borrowField f.text else .field f.text]))

theorem read?_tokens (s : Statement) : Line.read? s.tokens = some s.line := by
  cases s with
  | adapted i k f => rfl
  | optional k f deref => cases deref <;> rfl
  | direct k f borrow => cases borrow <;> rfl

end Statement

end RowDerive
