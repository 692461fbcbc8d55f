import RowDerive.Record.Basic
import RowDerive.Column.Storage
import RowDerive.Text.Escape

/-!
# Properties

A property is a column as it goes into a row: under which key, and whether by an adapter or by its
storage. The properties of a record need distinct keys, and each needs a way into the row.
-/

namespace RowDerive

/-- A column as it goes into a row. -/
structure Property where
  name : Name
  key : Located StringLiteral
  ty : Located Ty
  /-- The `T` of a column of type `Option<T>`. -/
  optional : Option Ty
  adapter : Option Ty
  /-- How the column, or what it may hold, is stored without an adapter. -/
  storage : Option Storage
deriving DecidableEq, Repr

namespace Property

/-- The key that a column has by its name. -/
def defaultKey (x : Located Name) : Located StringLiteral :=
  ⟨StringLiteral.ofText x.val.plain, x.span⟩

/-- The property of a column. -/
def ofColumn (c : Column) : Property where
  name := c.name.val
  key := c.setting.name.getD (defaultKey c.name)
  ty := c.ty
  optional := c.ty.val.optionInner?
  adapter := c.setting.adapter
  storage := (c.ty.val.optionInner?.getD c.ty.val).storage?

/-- Whether the column may hold nothing. -/
def isOptional (p : Property) : Bool := p.optional.isSome

/-- Whether the column can be stored without an adapter. -/
def isSupported (p : Property) : Bool := p.storage.isSome

/-- Whether the column can be put into a row. -/
def isStorable (p : Property) : Bool := p.adapter.isSome || p.isSupported

/-- The property as one that cannot be stored without an adapter. -/
def withoutStorage (p : Property) : Property := { p with storage := none }

/-- The text of the key. -/
def keyText (p : Property) : String := p.key.val.value

/-- What is wrong with a property after those with the keys and names `seen`, the nearest first. -/
def problems (seen : List (String × String)) (p : Property) : List Report :=
  let shared :=
    match seen.lookup p.keyText with
    | some first => [⟨.sharedKey p.keyText first, p.key.span⟩]
    | none => []
  shared ++ if p.isStorable then [] else [⟨.unsupportedType p.name.text, p.ty.span⟩]

/-- What is wrong with properties after those with the keys and names `seen`. -/
def listProblems (seen : List (String × String)) : List Property → List Report
  | [] => []
  | p :: ps => p.problems seen ++ listProblems ((p.keyText, p.name.text) :: seen) ps

/-- The properties of a record, in the order of its columns. -/
def ofRecord (r : Record) : Checked (List Property) :=
  let ps := r.columns.map ofColumn
  .ifClean (listProblems [] ps) ps

theorem ne_nil_of_ofRecord_eq_error {r : Record} {rs : List Report} (h : ofRecord r = .error rs) :
    rs ≠ [] := by
  obtain ⟨hne, rfl⟩ := (Checked.ifClean_eq_error_iff _ _ _).1 h
  exact hne

end Property

end RowDerive
