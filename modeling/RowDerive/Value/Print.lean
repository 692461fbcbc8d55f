import RowDerive.Value.Basic
import RowDerive.Text.Quote
import RowDerive.Decimal.Notation

/-!
# Values as text

`Value.display` is the short form that a printed row shows. `Value.outline` is the form for inspection,
which names the kind; an outline is laid out on one line or indented.
-/

namespace RowDerive

/-- A value for inspection: a word, a word around an outline, or a list of words. -/
inductive Outline where
  | word (s : String)
  | call (name : String) (inner : Outline)
  | list (items : List String)
deriving DecidableEq, Repr

namespace Outline

/-- Four blanks a level. -/
def indent (level : Nat) : String := String.ofList (List.replicate (4 * level) ' ')

/-- The outline on one line. -/
def inline : Outline → String
  | word s => s
  | call name x => name ++ "(" ++ x.inline ++ ")"
  | list items => "[" ++ ", ".intercalate items ++ "]"

/-- The outline with one part a line, for a place that is indented by `level`. -/
def lines (level : Nat) : Outline → String
  | word s => s
  | call name x =>
    name ++ "(\n" ++ indent (level + 1) ++ x.lines (level + 1) ++ ",\n" ++ indent level ++ ")"
  | list [] => "[]"
  | list items =>
    "[\n" ++ String.join (items.map fun s => indent (level + 1) ++ s ++ ",\n") ++
      indent level ++ "]"

end Outline

namespace Value

/-- The short form. Numbers are never in scientific form, and of a blob only the size is shown. -/
def display : Value → String
  | null => "null"
  | bool b => if b then "true" else "false"
  | byte n => toString n.toInt
  | short n => toString n.toInt
  | int n => toString n.toInt
  | long n => toString n.toInt
  | float bits => Decimal.Notation.plain.render .single bits.toNat
  | double bits => Decimal.Notation.plain.render .double bits.toNat
  | text s => Text.quote s
  | blob bytes => s!"<{bytes.length} bytes>"

/-- The form for inspection. -/
def outline (v : Value) : Outline :=
  match v with
  | null => .word v.kind.label
  | bool b => .call v.kind.label (.word (if b then "true" else "false"))
  | byte n => .call v.kind.label (.word (toString n.toInt))
  | short n => .call v.kind.label (.word (toString n.toInt))
  | int n => .call v.kind.label (.word (toString n.toInt))
  | long n => .call v.kind.label (.word (toString n.toInt))
  | float bits => .call v.kind.label (.word (Decimal.Notation.inspect.render .single bits.toNat))
  | double bits => .call v.kind.label (.word (Decimal.Notation.inspect.render .double bits.toNat))
  | text s => .call v.kind.label (.word (Text.inspect s))
  | blob bytes => .call v.kind.label (.list (bytes.map fun b => toString b.toNat))

end Value

end RowDerive
