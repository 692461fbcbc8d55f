import RowDerive.Record.Basic

/-!
# Extensions

An extension looks at a record and at the methods that are left to implement. It says whether it
applies, which methods it takes away, and what it makes: one method, or a failure.
-/

namespace RowDerive

/-- What an extension sees. -/
structure Offer where
  record : Record
  /-- The methods that no earlier extension took. -/
  methods : List (Located Method)

/-- Why an extension makes nothing. -/
inductive Failure where
  /-- What is wrong with the declaration, which is something. -/
  | reports (rs : List Report) {ne : rs ≠ []}
  | internal (fault : InternalFault)
deriving DecidableEq, Repr

namespace Failure

/-- The failure as reports; an internal one has no place. -/
def toReports : Failure → List Report
  | reports rs => rs
  | internal fault => [⟨.internal fault, .nowhere⟩]

/-- Every failure is reported. -/
theorem toReports_ne_nil (f : Failure) : f.toReports ≠ [] := by
  cases f with
  | reports rs => assumption
  | internal fault => exact List.cons_ne_nil _ _

end Failure

/-- What can be asked of an extension. -/
structure Extension where
  applies : Offer → Bool
  /-- The methods taken away, compared without their places. -/
  takes : Offer → List Method
  /-- The tokens of the method made. -/
  make : Offer → Except Failure (List Token)

end RowDerive
