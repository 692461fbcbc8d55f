import RowDerive.Column.Basic

/-!
# Records

A record is a declared type as far as a row is derived from it: its name and generics, the methods that
it declares without a body, and its columns. Every attribute is read, whatever is wrong with the others,
and all reports are given together.
-/

namespace RowDerive

open RowDerive.Parser (Listed)

/-! ## Methods -/

namespace Method

/-- The type of rows, as generated code names it. -/
def rowPath : Ty := .path true [.bare "content_values"] (.bare "ContentValues")

/-- The method that a record declares if it declares none itself. -/
def default : Method where
  attrs := []
  vis := [Token.word "pub"]
  sig :=
    { isConst := false, isAsync := false, isUnsafe := false, abi := none
      name := "to_content_values"
      generics := ⟨none, none⟩
      params := ⟨[.receiver (Token.op "&" ++ [Token.word "self"])], false⟩
      variadic := none
      result := some rowPath }

/-- The methods declared in the arguments of an attribute. -/
def listOfAttribute (a : Attribute) : Checked (List (Located Method)) :=
  match a.args with
  | .error e => .error [.ofSyntax e]
  | .ok (content, close) =>
    match Parser.runAll (Grammar.methodList (Grammar.rulesFor content)) content close with
    | .error e => .error [.ofSyntax e]
    | .ok ms => .ok ms

end Method

/-! ## Records -/

/-- A declared type that a row can be derived from. -/
structure Record where
  name : Located String
  generics : Generics
  methods : List (Located Method)
  columns : List Column
deriving DecidableEq, Repr

namespace Record

/-- The attributes that declare methods. -/
def methodAttrs (attrs : List Attribute) : List Attribute :=
  attrs.filter (·.path.val.isName "content_values")

/-- What each attribute declares. The default method stands for an attribute if there is none. -/
def declaredMethods (attrs : List Attribute) : List (Checked (List (Located Method))) :=
  match methodAttrs attrs with
  | [] => [.ok [⟨Method.default, .nowhere⟩]]
  | as => as.map Method.listOfAttribute

/-- The columns of the fields, or what is wrong with fields without names. -/
def columnsOf : Shape → List (Checked Column)
  | .named fields => fields.map Column.ofField
  | .positional span => [.error [⟨.positionalFields, span⟩]]
  | .unit | .noRecord _ => []

/-- The record that an item declares. -/
def ofItem (i : Item) : Checked Record :=
  match i.shape with
  | .noRecord keyword => .error [⟨.noRecord, keyword⟩]
  | shape =>
    let methods := declaredMethods i.attrs
    let columns := columnsOf shape
    .ifClean (methods.flatMap Checked.reports ++ columns.flatMap Checked.reports)
      ⟨i.name, i.generics, (Checked.results methods).flatten, Checked.results columns⟩

end Record

end RowDerive
