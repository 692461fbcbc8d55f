/-!
# Names of fields

A field is named by an identifier, which may be marked as raw so that it can be a keyword. The mark is
no part of what the name says.
-/

namespace RowDerive

/-- A text without the mark of a raw identifier. -/
def unmarked (x : String) : String :=
  match x.toList with
  | 'r' :: '#' :: cs => String.ofList cs
  | _ => x

/-- The name of a field, as written. -/
structure Name where
  text : String
  plain_ne : unmarked text ≠ ""
deriving DecidableEq, Repr

namespace Name

/-- What the name says. -/
def plain (x : Name) : String := unmarked x.text

/-- The name that a text is, if it says something. -/
def ofText? (text : String) : Option Name :=
  if h : unmarked text ≠ "" then some ⟨text, h⟩ else none

end Name

end RowDerive
