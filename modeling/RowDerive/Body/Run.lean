import RowDerive.Body.Basic
import RowDerive.Row.Basic

/-!
# Running bodies

A body runs on the fields of a record and on what its adapters mean. A field holds a value that can be
stored, perhaps an optional one, or a value that only adapters know. A statement that takes a field in a
way that its type does not allow has no result.
-/

namespace RowDerive

/-- What a field holds; `α` are the values that only adapters know. -/
inductive FieldValue (α : Type) where
  | plain (s : Storage) (x : s.base.Carrier)
  | optional (s : Storage) (x : Option s.base.Carrier)
  | foreign (a : α)

/-- What an adapter does: it has a state, with which it begins, and writes fields into a row. It has no
result for a field of a type that it is not for. -/
structure Adapter (σ α : Type) where
  start : σ
  write : σ → Row → String → FieldValue α → Option (σ × Row)

/-- What a body runs on. What is written as the type of an adapter tells which it is. -/
structure Surroundings (σ α : Type) where
  field : Name → Option (FieldValue α)
  adapter : String → Option (Adapter σ α)

/-- An adapter with the state that it is in. -/
structure Instance (σ α : Type) where
  adapter : Adapter σ α
  state : σ

namespace Adapter

variable {σ α : Type}

/-- A fresh instance. -/
def instantiate (a : Adapter σ α) : Instance σ α := ⟨a, a.start⟩

end Adapter

namespace Body

variable {σ α : Type}

/-- The row written so far, and the adapters. -/
structure State (σ α : Type) where
  row : Row
  adapters : List (Instance σ α)

/-- What a statement does to a state. -/
def step (Γ : Surroundings σ α) (st : State σ α) (s : Statement) : Option (State σ α) := do
  let x ← Γ.field s.field
  match s, x with
  | .adapted i k _, x =>
    let a ← st.adapters[i]?
    let (state, row) ← a.adapter.write a.state st.row k.value x
    some ⟨row, st.adapters.set i { a with state := state }⟩
  | .optional k _ deref, .optional s x =>
    if deref = s.byRef then
      match x with
      | some x => some { st with row := st.row.put k.value (s.base.encode x) }
      | none => some { st with row := st.row.putNull k.value }
    else none
  | .direct k _ borrow, .plain s x =>
    if borrow = !s.byRef then some { st with row := st.row.put k.value (s.base.encode x) }
    else none
  | .optional .., _ | .direct .., _ => none

/-- What statements do to a state, one after the other. -/
def steps (Γ : Surroundings σ α) : State σ α → List Statement → Option (State σ α)
  | st, [] => some st
  | st, s :: ss => (step Γ st s).bind (steps Γ · ss)

/-- Fresh instances of adapters. -/
def instances (Γ : Surroundings σ α) : List Ty → Option (List (Instance σ α))
  | [] => some []
  | t :: ts => do
    let a ← Γ.adapter t.text
    return a.instantiate :: (← instances Γ ts)

/-- The row that a body makes. -/
def run (Γ : Surroundings σ α) (b : Body) : Option Row := do
  let adapters ← instances Γ b.adapters
  let st ← steps Γ ⟨Row.empty, adapters⟩ b.statements
  return st.row

end Body

namespace Record

/-- The body that puts the columns of a record. -/
def body? (r : Record) : Option Body :=
  match Property.ofRecord r with
  | .error _ => none
  | .ok ps =>
    match Body.ofProperties ps with
    | .error _ => none
    | .ok b => some b

end Record

end RowDerive
