import RowDerive.Row.Basic
import RowDerive.Value.Print

/-!
# Rows as text

A printed row is its entries as `key=value`, parted by one blank. An inspected row names the
container, on one line or indented.
-/

namespace RowDerive.Row

/-- One entry of a printed row. -/
def entryText (e : String × Value) : String := Text.quote e.1 ++ "=" ++ e.2.display

/-- The printed row. -/
def display (r : Row) : String := " ".intercalate (r.toList.map entryText)

/-- The inspected row on one line. -/
def inspect (r : Row) : String :=
  "ContentValues \x7b values: \x7b" ++
    ", ".intercalate (r.toList.map fun e => Text.inspect e.1 ++ ": " ++ e.2.outline.inline) ++
    "\x7d \x7d"

/-- The inspected row, one entry a line. -/
def inspectLines (r : Row) : String :=
  let entry := fun (e : String × Value) =>
    Outline.indent 2 ++ Text.inspect e.1 ++ ": " ++ e.2.outline.lines 2 ++ ",\n"
  let entries :=
    if r.isEmpty then "\x7b\x7d"
    else "\x7b\n" ++ String.join (r.toList.map entry) ++ Outline.indent 1 ++ "\x7d"
  "ContentValues \x7b\n" ++ Outline.indent 1 ++ "values: " ++ entries ++ ",\n\x7d"

/-- The text of a failed read. -/
def ReadError.message : ReadError → String
  | .missing key => s!"no value stored for {Text.inspect key}"
  | .mismatch key cause => s!"{Text.inspect key}: {cause.message}"

end RowDerive.Row
