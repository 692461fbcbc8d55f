import RowDerive.Property

/-!
# Bodies

The body of a generated method makes an empty row and one instance of each adapter, then puts the
properties one after the other. It is kept as data, with a printer and an evaluator.
-/

namespace RowDerive

/-- What puts one field into the row, under a key. -/
inductive Statement where
  /-- The adapter of that number writes the field. -/
  | adapted (adapter : Nat) (key : StringLiteral) (field : Name)
  /-- An optional field: what it holds, by value if `deref`, or null. -/
  | optional (key : StringLiteral) (field : Name) (deref : Bool)
  /-- A field, by reference if `borrow`. -/
  | direct (key : StringLiteral) (field : Name) (borrow : Bool)
deriving DecidableEq, Repr

namespace Statement

def key : Statement → StringLiteral
  | adapted _ k _ | optional k _ _ | direct k _ _ => k

def field : Statement → Name
  | adapted _ _ f | optional _ f _ | direct _ f _ => f

end Statement

/-- The body of a generated method. -/
structure Body where
  /-- The types of the adapters, by number. -/
  adapters : List Ty
  statements : List Statement
deriving DecidableEq, Repr

namespace Body

/-- Types without those whose text was there before. -/
def distinct (seen : List String) : List Ty → List Ty
  | [] => []
  | t :: ts => if t.text ∈ seen then distinct seen ts else t :: distinct (t.text :: seen) ts

/-- The adapters of properties, in the order in which they first occur. -/
def adaptersOf (ps : List Property) : List Ty := distinct [] (ps.filterMap Property.adapter)

/-- The number of the adapter that is written like `t`. -/
def number? (t : Ty) (adapters : List Ty) : Option Nat := adapters.findIdx? (·.text == t.text)

/-- The statement that puts a property, if there is a way. -/
def statement? (adapters : List Ty) (p : Property) : Option Statement :=
  match p.adapter with
  | some t => (number? t adapters).map fun i => .adapted i p.key.val p.name
  | none =>
    p.storage.map fun s =>
      if p.isOptional then .optional p.key.val p.name s.byRef
      else .direct p.key.val p.name (!s.byRef)

/-- The statements that put the properties; the first property without a way is a fault. -/
def assemble (adapters : List Ty) : List Property → Except InternalFault (List Statement)
  | [] => .ok []
  | p :: ps =>
    match statement? adapters p with
    | none => .error (.unstorable p.name.text)
    | some s => (s :: ·) <$> assemble adapters ps

/-- The body that puts the properties. -/
def ofProperties (ps : List Property) : Except InternalFault Body :=
  Body.mk (adaptersOf ps) <$> assemble (adaptersOf ps) ps

end Body

end RowDerive
