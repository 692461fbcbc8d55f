import RowDerive.Syntax.Ty
import RowDerive.Value.Column

/-!
# Storage

A column without an adapter is stored by the type of its field alone, which is recognised by its name:
the last segment of a path, without arguments, a vector of bytes, or a reference to text or bytes. An
optional field is stored as what it may hold. Groups and parentheses around the whole type do not count.
-/

namespace RowDerive

/-- How a value is stored without an adapter. -/
inductive Storage where
  /-- An owned value, which is borrowed to be put. -/
  | owned (β : BaseType)
  /-- A reference to text. -/
  | textRef
  /-- A reference to bytes. -/
  | bytesRef
deriving DecidableEq, Repr

namespace Storage

/-- What is stored. -/
def base : Storage → BaseType
  | owned β => β
  | textRef => .string
  | bytesRef => .bytes

/-- Whether the value is a reference, which is passed on as it is. -/
def byRef : Storage → Bool
  | owned _ => false
  | textRef | bytesRef => true

@[simp] theorem base_owned (β : BaseType) : (owned β).base = β := rfl
@[simp] theorem byRef_owned (β : BaseType) : (owned β).byRef = false := rfl

end Storage

/-- The base types whose names are single words. -/
def BaseType.ofName? : String → Option BaseType
  | "bool" => some .bool
  | "i8" => some .i8
  | "i16" => some .i16
  | "i32" => some .i32
  | "i64" => some .i64
  | "f32" => some .f32
  | "f64" => some .f64
  | "String" => some .string
  | _ => none

namespace Ty

/-- The one type in the angle brackets of a segment. -/
def soleArg? : Segment → Option Ty
  | .generic _ _ [.type t] _ => some t
  | _ => none

/-- Whether the type is `u8`. -/
def isByte (t : Ty) : Bool := t.bare? == some "u8"

/-- The `T` of an `Option<T>`. -/
def optionInner? (t : Ty) : Option Ty :=
  match t.core with
  | .path _ _ s => if s.name = "Option" then soleArg? s else none
  | _ => none

/-- How the last segment of a path says to store a value. -/
def segmentStorage? (s : Segment) : Option Storage :=
  if s.name = "Vec" then
    match soleArg? s with
    | some t => if t.isByte then some (.owned .bytes) else none
    | none => none
  else if s.isBare then (BaseType.ofName? s.name).map .owned
  else none

/-- How a reference to `t` is stored. -/
def refStorage? (t : Ty) : Option Storage :=
  match t with
  | .slice elem => if elem.isByte then some .bytesRef else none
  | t => if t.bare? = some "str" then some .textRef else none

/-- How a value of the type is stored without an adapter. -/
def storage? (t : Ty) : Option Storage :=
  match t.core with
  | .path _ _ s => segmentStorage? s
  | .reference _ mutable elem => if mutable then none else refStorage? elem
  | _ => none

@[simp] theorem optionInner?_group (t : Ty) : (group t).optionInner? = t.optionInner? := rfl
@[simp] theorem optionInner?_paren (t : Ty) : (paren t).optionInner? = t.optionInner? := rfl
@[simp] theorem storage?_group (t : Ty) : (group t).storage? = t.storage? := rfl
@[simp] theorem storage?_paren (t : Ty) : (paren t).storage? = t.storage? := rfl

end Ty

end RowDerive
