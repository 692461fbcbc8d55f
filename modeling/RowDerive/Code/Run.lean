import RowDerive.Body.Run
import RowDerive.Code.Basic
import RowDerive.Token.Literal
import RowDerive.Token.Print

/-!
# Running code

The statements of a block are run as they are written. What is known besides the locals are the fields
of the record, the adapters, and the few functions that a block calls. Whatever else is written has no
result.
-/

namespace RowDerive.Code

open Token

variable {σ α : Type}

/-- What a local holds and what is computed. -/
inductive Datum (σ α : Type) where
  | row (r : Row)
  | adapter (a : Instance σ α)
  | text (s : String)
  | number (n : Nat)
  | held (x : FieldValue α)
  /-- A reference to what a field holds. -/
  | reference (x : FieldValue α)
  /-- A reference to a local. -/
  | place (mutable : Bool) (x : String)
  | unit

structure Binding (σ α : Type) where
  mutable : Bool
  datum : Datum σ α

/-- The locals, and the types of which an instance has been made, as written. -/
structure Store (σ α : Type) where
  names : String → Option (Binding σ α)
  made : List String

namespace Store

def empty : Store σ α := ⟨fun _ => none, []⟩

def bind (st : Store σ α) (x : String) (b : Binding σ α) : Store σ α :=
  { st with names := fun y => if y = x then some b else st.names y }

/-- The locals `xs` mean again what they meant outside. -/
def leave (outer inner : Store σ α) (xs : List String) : Store σ α :=
  { inner with names := fun y => if y ∈ xs then outer.names y else inner.names y }

end Store

/-- What a string literal or a number stands for. -/
def literal? (x : String) : Option (Datum σ α) :=
  match Literal.string? x with
  | some s => if Literal.isSuffixed x then none else some (.text s)
  | none => (Literal.integer? x).map fun n => .number n.1

/-- What is stored for what is put: what is owned is put by reference, and a reference as it is. -/
def Datum.value? : Datum σ α → Option Value
  | held (.plain s x) => if s.byRef then some (s.base.encode x) else none
  | reference (.plain s x) => if s.byRef then none else some (s.base.encode x)
  | _ => none

def Operand.eval? (Γ : Surroundings σ α) (st : Store σ α) : Operand → Option (Datum σ α)
  | name x => (st.names x).map Binding.datum
  | borrow mutable x =>
    (st.names x).bind fun b => if mutable && !b.mutable then none else some (.place mutable x)
  | deref x =>
    match (st.names x).map Binding.datum with
    | some (.reference v) => some (.held v)
    | _ => none
  | field f => ((Name.ofText? f).bind Γ.field).map .held
  | borrowField f => ((Name.ofText? f).bind Γ.field).map .reference
  | literal x => literal? x

/-- A call of a function: what makes a row takes no notice of the room that it is given, and what an
adapter writes is up to the adapter. -/
def call? (st : Store σ α) : List String → List (Datum σ α) → Option (Datum σ α × Store σ α)
  | ["content_values", "ContentValues", "with_capacity"], [.number _] => some (.row .empty, st)
  | ["content_values", "ColumnTypeAdapter", "to_content_values"],
      [.place _ x, .place true y, .text k, .reference v] =>
    match st.names x, st.names y with
    | some ⟨m, .adapter a⟩, some ⟨n, .row r⟩ =>
      (a.adapter.write a.state r k v).map fun (state, r) =>
        (.unit, (st.bind x ⟨m, .adapter { a with state := state }⟩).bind y ⟨n, .row r⟩)
    | _, _ => none
  | _, _ => none

/-- A call of a method of a local, which must be a row that can be written to. -/
def method? (st : Store σ α) (x f : String) (args : List (Datum σ α)) : Option (Store σ α) :=
  match st.names x with
  | some ⟨true, .row r⟩ =>
    match f, args with
    | "put", [.text k, d] => d.value?.map fun v => st.bind x ⟨true, .row (r.put k v)⟩
    | "put_null", [.text k] => some (st.bind x ⟨true, .row (r.putNull k)⟩)
    | _, _ => none
  | _ => none

/-- A fresh instance of the adapter that is written like the type. -/
def fresh? (Γ : Surroundings σ α) (st : Store σ α) (type : List Token) :
    List String → String → Option (Datum σ α × Store σ α)
  | ["core", "default", "Default"], "default" =>
    (Γ.adapter (listText type)).map fun a =>
      (.adapter a.instantiate, { st with made := st.made ++ [listText type] })
  | _, _ => none

def Expr.eval? (Γ : Surroundings σ α) (st : Store σ α) : Expr → Option (Datum σ α × Store σ α)
  | operand e => (e.eval? Γ st).map fun d => (d, st)
  | call path args => (args.mapM (Operand.eval? Γ st)).bind (call? st path)
  | method x f args =>
    (args.mapM (Operand.eval? Γ st)).bind fun ds => (method? st x f ds).map fun st => (.unit, st)
  | provided type trait f => fresh? Γ st type trait f

/-- The locals of a branch, if it is for the variant that the option is. What the option holds is bound
to a reference. -/
def Arm.enter? (st : Store σ α) (s : Storage) (x : Option s.base.Carrier) (a : Arm) :
    Option (Store σ α) :=
  match a.path, a.binder, x with
  | ["core", "option", "Option", "Some"], some y, some x =>
    some (st.bind y ⟨false, .reference (.plain s x)⟩)
  | ["core", "option", "Option", "None"], none, none => some st
  | _, _, _ => none

/-- The first branch that is for the variant is taken. -/
def choose? (Γ : Surroundings σ α) (st : Store σ α) (s : Storage) (x : Option s.base.Carrier) :
    List Arm → Option (Store σ α)
  | [] => none
  | a :: arms =>
    match a.enter? st s x with
    | some inner =>
      match a.value.eval? Γ inner with
      | some (.unit, inner) => some (st.leave inner a.binder.toList)
      | _ => none
    | none => choose? Γ st s x arms

namespace Command

def exec? (Γ : Surroundings σ α) (st : Store σ α) : Command → Option (Store σ α)
  | bind mutable x e => (e.eval? Γ st).map fun (d, st) => st.bind x ⟨mutable, d⟩
  | eval e => (e.eval? Γ st).map Prod.snd
  | choose x arms =>
    match (st.names x).map Binding.datum with
    | some (.reference (.optional s v)) => choose? Γ st s v arms
    | _ => none

/-- The local that a command binds. -/
def binder? : Command → Option String
  | bind _ x _ => some x
  | eval _ | choose .. => none

end Command

namespace Line

def execAll? (Γ : Surroundings σ α) : Store σ α → List Command → Option (Store σ α)
  | st, [] => some st
  | st, c :: cs => (c.exec? Γ st).bind (execAll? Γ · cs)

/-- The locals of a block are forgotten behind it. -/
def exec? (Γ : Surroundings σ α) (st : Store σ α) : Line → Option (Store σ α)
  | one c => c.exec? Γ st
  | block cs => (execAll? Γ st cs).map fun inner => st.leave inner (cs.filterMap Command.binder?)

end Line

/-- What a statement does, if it is read. -/
def exec? (Γ : Surroundings σ α) (st : Store σ α) (ts : List Token) : Option (Store σ α) :=
  (Line.read? ts).bind (Line.exec? Γ st)

/-- What statements do, one after the other. -/
def execs? (Γ : Surroundings σ α) : Store σ α → List (List Token) → Option (Store σ α)
  | st, [] => some st
  | st, ts :: tss => (exec? Γ st ts).bind (execs? Γ · tss)

/-- The row that a block has as its value, and the types of which an instance was made. -/
structure Outcome where
  row : Row
  made : List String

/-- The outcome if a block has the local `x` as its value. -/
def Store.outcome? (st : Store σ α) (x : String) : Option Outcome :=
  match st.names x with
  | some ⟨_, .row r⟩ => some ⟨r, st.made⟩
  | _ => none

/-- Runs the statements of a block, the last of which is the local that it has as its value. -/
def run? (Γ : Surroundings σ α) (tss : List (List Token)) : Option Outcome :=
  match tss.getLast? with
  | some [.ident x _] => (execs? Γ .empty tss.dropLast).bind (Store.outcome? · x)
  | _ => none

end RowDerive.Code
