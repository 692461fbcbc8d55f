import RowDerive.Row.Basic

/-!
# Rows in registers

Several rows are kept at once, in numbered registers, and one of them changes at a time. A run begins
with rows that are all empty.
-/

namespace RowDerive

/-- The rows, by the numbers of their registers. -/
abbrev Registers := Nat → Row

namespace Registers

/-- A change of the row in the register `r`. -/
inductive Step where
  | new (r : Nat)
  /-- An empty row that expects `n` columns. -/
  | withCapacity (r n : Nat)
  | put (r : Nat) (k : String) (v : Value)
  | putNull (r : Nat) (k : String)
  /-- Puts every entry of a copy of the row in `source`. -/
  | merge (r source : Nat)
  | erase (r : Nat) (k : String)
  | clear (r : Nat)
  /-- A copy of the row in `source`. -/
  | copy (r source : Nat)
  | ofList (r : Nat) (es : Entries)
deriving DecidableEq, Repr

namespace Step

/-- The register that the step changes. -/
def target : Step → Nat
  | new r | withCapacity r _ | put r _ _ | putNull r _ | merge r _ | erase r _ | clear r | copy r _
  | ofList r _ => r

/-- The row that the step leaves in its register. -/
def result (regs : Registers) : Step → Row
  | new _ | withCapacity _ _ | clear _ => Row.empty
  | put r k v => (regs r).put k v
  | putNull r k => (regs r).putNull k
  | merge r source => (regs r).merge (regs source)
  | erase r k => (regs r).erase k
  | copy _ source => regs source
  | ofList _ es => Row.ofList es

end Step

/-- All rows empty. -/
def start : Registers := fun _ => Row.empty

/-- The rows after a step. -/
def apply (regs : Registers) (s : Step) : Registers := fun i =>
  if i = s.target then s.result regs else regs i

/-- The rows after a run. -/
def run (ss : List Step) : Registers := ss.foldl apply start

end Registers

end RowDerive
