import RowDerive.Column.Setting

/-!
# Columns

A column is a named field with its settings. A field may have its settings in one attribute only.
-/

namespace RowDerive

/-- A field with its settings. -/
structure Column where
  name : Located Name
  ty : Located Ty
  setting : Setting
deriving DecidableEq, Repr

namespace Column

/-- The settings in the attributes, and what is wrong with them. After an attribute without fault every
other one is a duplicate. -/
def readSettings (found : Option Setting) : List Attribute → List Report × Option Setting
  | [] => ([], found)
  | a :: as =>
    match found with
    | some s =>
      let (rs, s) := readSettings (some s) as
      (⟨.duplicateColumn, a.span⟩ :: rs, s)
    | none =>
      match Setting.ofAttribute a with
      | .ok s => readSettings (some s) as
      | .error r =>
        let (rs, s) := readSettings none as
        (r :: rs, s)

/-- The attributes that hold settings. -/
def settingAttrs (attrs : List Attribute) : List Attribute :=
  attrs.filter (·.path.val.isName "column")

/-- The column of a field. -/
def ofField (f : Field) : Checked Column :=
  let (rs, s) := readSettings none (settingAttrs f.attrs)
  .ifClean rs ⟨f.name, f.ty, s.getD Setting.none⟩

end Column

end RowDerive
