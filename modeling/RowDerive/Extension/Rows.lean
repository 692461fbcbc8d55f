import RowDerive.Extension.Basic
import RowDerive.Record.Getter
import RowDerive.Body.Print
import RowDerive.Grammar.Depth

/-!
# The extension that makes rows

It implements the one method that returns a row, by putting every property of the record in turn.
-/

namespace RowDerive

namespace Method

/-- The method with a body, as assembled. -/
def withBody (m : Method) (b : Body) : List Token :=
  m.tokens ++ [Token.enclose .brace b.tokens]

/-- The method that puts the properties. What is assembled has to be readable as a method, and is handed
back as assembled. Where its parts are read back, that is what was read:
`Method.implement_eq_implementation?`. -/
def implement (m : Method) (ps : List Property) : Except InternalFault (List Token) :=
  match Body.ofProperties ps with
  | .error fault => .error fault
  | .ok b =>
    match implementation? (m.withBody b) with
    | .error e => .error (.unreadable e.fault)
    | .ok _ => .ok (m.withBody b)

end Method

namespace Extension

/-- The name of the type of rows. -/
def rowName : String := "ContentValues"

/-- The method that puts the columns of the record. -/
def makeRow (o : Offer) : Except Failure (List Token) :=
  match Method.soleGetter? rowName o.methods with
  | none => .error (.internal .noMethodLeft)
  | some m =>
    match h : Property.ofRecord o.record with
    | .error rs => .error (@Failure.reports rs (Property.ne_nil_of_ofRecord_eq_error h))
    | .ok ps =>
      match m.val.implement ps with
      | .error fault => .error (.internal fault)
      | .ok ts => .ok ts

/-- Implements the one method that returns a row. -/
def rows : Extension where
  applies o := (Method.soleGetter? rowName o.methods).isSome
  takes o := ((Method.soleGetter? rowName o.methods).map Located.val).toList
  make := makeRow

end Extension

end RowDerive
