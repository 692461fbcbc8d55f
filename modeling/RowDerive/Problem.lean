import RowDerive.Parser.Basic

/-!
# Problems

What can be wrong with a declaration, and what is broken inside an extension. A report is a problem at
its place. Parts of a declaration are read apart, so that all their reports are given together, in the
order of the parts.
-/

namespace RowDerive

/-- A broken assumption inside an extension. -/
inductive InternalFault where
  /-- No method is left that the extension could implement. -/
  | noMethodLeft
  /-- A property has neither an adapter nor a storage. -/
  | unstorable (property : String)
  /-- What was assembled is not a method. -/
  | unreadable (fault : SyntaxFault)
  /-- A fault in the extension's own words. -/
  | stated (text : String)
deriving DecidableEq, Repr

namespace InternalFault

/-- What is broken. -/
def text : InternalFault → String
  | noMethodLeft => "no method returning ContentValues left to implement"
  | unstorable x => s!"property `{x}` reached code generation without a way to store it"
  | unreadable fault => s!"generated method doesn't parse: {fault.message}"
  | stated text => text

/-- The text behind the mark that tells internal faults from the problems of a declaration. -/
def message (f : InternalFault) : String := "internal error: " ++ f.text

end InternalFault

/-- What is wrong with a declaration. -/
inductive Problem where
  | unreadable (fault : SyntaxFault)
  | noRecord
  | positionalFields
  | duplicateColumn
  | duplicateName
  | duplicateAdapter
  | emptyName
  | unknownSetting
  /-- Two properties have the same key; `first` is the nearer one before. -/
  | sharedKey (key first : String)
  | unsupportedType (property : String)
  | unimplemented (method : String)
  | internal (fault : InternalFault)
  /-- A problem in an extension's own words. -/
  | stated (text : String)
deriving DecidableEq, Repr

namespace Problem

def message : Problem → String
  | unreadable fault => fault.message
  | noRecord => "ContentValues can only be derived for structs"
  | positionalFields => "ContentValues fields must be named"
  | duplicateColumn => "duplicate #[column] attribute"
  | duplicateName => "duplicate column name"
  | duplicateAdapter => "duplicate column adapter"
  | emptyName => "column name can't be empty"
  | unknownSetting => "unexpected column attribute, expected `name` or `adapter`"
  | sharedKey key first => s!"column name `{key}` is already used by property `{first}`"
  | unsupportedType x => s!"property `{x}` has type that can't be put into ContentValues"
  | unimplemented x => s!"no extension implements abstract method `{x}`"
  | internal fault => fault.message
  | stated text => text

end Problem

/-- A problem at its place. -/
abbrev Report := Located Problem

namespace Report

/-- The report of a fault of syntax. -/
def ofSyntax (e : SyntaxError) : Report := ⟨.unreadable e.fault, e.span⟩

end Report

/-! ## Parts that fail apart -/

/-- What is read, or all that is wrong with it. -/
abbrev Checked (α : Type) := Except (List Report) α

namespace Checked

variable {α : Type}

/-- All that is wrong. -/
def reports : Checked α → List Report
  | .ok _ => []
  | .error rs => rs

/-- What is read of the parts that are right. -/
def results : List (Checked α) → List α
  | [] => []
  | .ok a :: cs => a :: results cs
  | .error _ :: cs => results cs

/-- `a`, if there is nothing to report. -/
def ifClean (rs : List Report) (a : α) : Checked α := if rs.isEmpty then .ok a else .error rs

/-- All parts, or all reports in their order. -/
def all (cs : List (Checked α)) : Checked (List α) :=
  ifClean (cs.flatMap reports) (results cs)

@[simp] theorem reports_ok (a : α) : reports (.ok a) = [] := rfl
@[simp] theorem reports_error (rs : List Report) : reports (.error rs : Checked α) = rs := rfl

@[simp] theorem ifClean_nil (a : α) : ifClean [] a = .ok a := rfl

theorem ifClean_eq_ok_iff (rs : List Report) (a b : α) :
    ifClean rs a = .ok b ↔ rs = [] ∧ a = b := by
  cases rs <;> simp [ifClean]

theorem ifClean_eq_error_iff (rs qs : List Report) (a : α) :
    ifClean rs a = .error qs ↔ rs ≠ [] ∧ rs = qs := by
  cases rs <;> simp [ifClean]

end Checked

end RowDerive
