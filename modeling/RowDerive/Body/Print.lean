import RowDerive.Body.Basic

/-!
# Bodies as tokens
-/

namespace RowDerive

open Token

namespace Token

/-- A path from the root. -/
def rootPath (names : List String) : List Token :=
  op "::" ++ sepBy (op "::") (names.map fun x => [word x])

/-- A call with arguments parted by commas. -/
def call (f : List Token) (args : List (List Token)) : List Token :=
  f ++ [parens (sepBy (op ",") args)]

/-- A call of a method of a name. -/
def methodCall (object method : String) (args : List (List Token)) : List Token :=
  call ([word object] ++ op "." ++ [word method]) args

end Token

/-- The name of the adapter of the number `i`. -/
def adapterName (i : Nat) : String := s!"adapter_{i}"

namespace Statement

/-- The field `f` of the record. -/
def selfField (f : Name) : List Token := [word "self"] ++ op "." ++ [word f.text]

/-- The tokens of a statement. -/
def tokens : Statement → List Token
  | adapted i k f =>
    rootPath ["content_values", "ColumnTypeAdapter", "to_content_values"] ++
      [parens (op "&" ++ [word (adapterName i)] ++ op "," ++
        op "&" ++ [word "mut", word "values"] ++ op "," ++
        [lit k.token] ++ op "," ++ op "&" ++ selfField f ++ op ",")] ++ op ";"
  | optional k f deref =>
    let value := [word "value"]
    let held := (if deref then op "*" else []) ++ value
    [enclose .brace
      ([word "let"] ++ value ++ op "=" ++ op "&" ++ selfField f ++ op ";" ++
        [word "match"] ++ value ++
        [enclose .brace
          (call (rootPath ["core", "option", "Option", "Some"]) [value] ++ op "=>" ++
            methodCall "values" "put" [[lit k.token], held] ++ op "," ++
            rootPath ["core", "option", "Option", "None"] ++ op "=>" ++
            methodCall "values" "put_null" [[lit k.token]] ++ op ",")])]
  | direct k f borrow =>
    methodCall "values" "put" [[lit k.token], (if borrow then op "&" else []) ++ selfField f] ++
      op ";"

end Statement

namespace Body

/-- The tokens that make an adapter. -/
def adapterTokens (i : Nat) (t : Ty) : List Token :=
  [word "let", word (adapterName i)] ++ op "=" ++ op "<" ++ t.tokens ++ [word "as"] ++
    rootPath ["core", "default", "Default"] ++ op ">" ++ op "::" ++
    call [word "default"] [] ++ op ";"

/-- The tokens that make the adapters from the number `i` on. -/
def adapterListTokens (i : Nat) : List Ty → List Token
  | [] => []
  | t :: ts => adapterTokens i t ++ adapterListTokens (i + 1) ts

/-- The tokens that make the row; it can be written to if there is something to write. -/
def rowTokens (size : Nat) : List Token :=
  [word "let"] ++ (if size = 0 then [] else [word "mut"]) ++ [word "values"] ++ op "=" ++
    call (rootPath ["content_values", "ContentValues", "with_capacity"]) [[lit s!"{size}usize"]] ++
    op ";"

/-- The tokens of a body, without its braces. -/
def tokens (b : Body) : List Token :=
  rowTokens b.statements.length ++ adapterListTokens 0 b.adapters ++
    b.statements.flatMap Statement.tokens ++ [word "values"]

end Body

end RowDerive
