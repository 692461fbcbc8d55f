import RowDerive.Syntax.Attribute
import RowDerive.Syntax.Generics
import RowDerive.Syntax.Name

/-!
# Declared types

The declaration of a type with its attributes, as far as a row can be derived from it: the named fields
of a record. Of the other shapes only the place is kept, for a report.
-/

namespace RowDerive

/-- A named field. -/
structure Field where
  attrs : List Attribute
  vis : List Token
  name : Located Name
  ty : Located Ty
deriving DecidableEq, Repr

namespace Field

/-- The field as declared. -/
def tokens (f : Field) : List Token :=
  f.attrs.flatMap Attribute.tokens ++ f.vis ++ [Token.word f.name.val.text] ++ Token.op ":" ++
    f.ty.val.tokens

end Field

/-- What a declaration is made of. -/
inductive Shape where
  /-- A record with named fields. -/
  | named (fields : List Field)
  /-- A record with fields by position, and the place of their parentheses. -/
  | positional (span : Span)
  /-- A record without fields. -/
  | unit
  /-- No record, and the place of the keyword that says so. -/
  | noRecord (keyword : Span)
deriving DecidableEq, Repr

/-- The declaration of a type. -/
structure Item where
  attrs : List Attribute
  vis : List Token
  name : Located String
  generics : Generics
  shape : Shape
deriving DecidableEq, Repr

end RowDerive
