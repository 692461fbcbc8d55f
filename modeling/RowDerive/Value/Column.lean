import RowDerive.Value.Basic

/-!
# Typed access to column values

A column type is one of nine base types under any number of options. Each has a carrier of data, an
encoding into values and a decoding from them. An absent option is stored as null, so a present option
of an absent one is not told apart from an absent one.
-/

namespace RowDerive

/-- The types that are stored as they are. -/
inductive BaseType where
  | bool
  | i8
  | i16
  | i32
  | i64
  | f32
  | f64
  | string
  | bytes
deriving DecidableEq, Repr

namespace BaseType

/-- The type as a declaration and an error message name it. -/
def name : BaseType → String
  | bool => "bool"
  | i8 => "i8"
  | i16 => "i16"
  | i32 => "i32"
  | i64 => "i64"
  | f32 => "f32"
  | f64 => "f64"
  | string => "String"
  | bytes => "Vec<u8>"

/-- The kind of value that stores the type. -/
def kind : BaseType → Kind
  | bool => .bool
  | i8 => .byte
  | i16 => .short
  | i32 => .int
  | i64 => .long
  | f32 => .float
  | f64 => .double
  | string => .text
  | bytes => .blob

/-- The data of the type; a floating-point number is its bits. -/
abbrev Carrier : BaseType → Type
  | bool => Bool
  | i8 => Int8
  | i16 => Int16
  | i32 => Int32
  | i64 => Int64
  | f32 => UInt32
  | f64 => UInt64
  | string => String
  | bytes => List UInt8

def encode : (β : BaseType) → β.Carrier → Value
  | bool, x => .bool x
  | i8, x => .byte x
  | i16, x => .short x
  | i32, x => .int x
  | i64, x => .long x
  | f32, x => .float x
  | f64, x => .double x
  | string, x => .text x
  | bytes, x => .blob x

/-- The data of a value of the kind that stores the type. -/
def decode? : (β : BaseType) → Value → Option β.Carrier
  | bool, .bool x => some x
  | i8, .byte x => some x
  | i16, .short x => some x
  | i32, .int x => some x
  | i64, .long x => some x
  | f32, .float x => some x
  | f64, .double x => some x
  | string, .text x => some x
  | bytes, .blob x => some x
  | _, _ => none

@[simp] theorem kind_encode (β : BaseType) (x : β.Carrier) : (β.encode x).kind = β.kind := by
  cases β <;> rfl

@[simp] theorem decode?_encode (β : BaseType) (x : β.Carrier) : β.decode? (β.encode x) = some x := by
  cases β <;> rfl

/-- What is stored for data of a base type is never null. -/
theorem encode_ne_null (β : BaseType) (x : β.Carrier) : β.encode x ≠ .null := by
  cases β <;> simp [encode]

end BaseType

/-- A base type under any number of options. -/
inductive ColumnType where
  | base (β : BaseType)
  | option (τ : ColumnType)
deriving DecidableEq, Repr

/-- Why a value cannot be read at a type: it is of another kind than the one that stores the base
type. -/
structure Mismatch where
  expected : BaseType
  found : Kind
deriving DecidableEq, Repr

def Mismatch.message (e : Mismatch) : String :=
  s!"expected {e.expected.name}, found {e.found.name} value"

namespace ColumnType

abbrev Carrier : ColumnType → Type
  | base β => β.Carrier
  | option τ => Option τ.Carrier

def encode : (τ : ColumnType) → τ.Carrier → Value
  | base β, x => β.encode x
  | option _, none => .null
  | option τ, some x => τ.encode x

/-- Reads a value at a type. Null is an absent option, at the outermost option. -/
def decode : (τ : ColumnType) → Value → Except Mismatch τ.Carrier
  | base β, v =>
    match β.decode? v with
    | some x => .ok x
    | none => .error ⟨β, v.kind⟩
  | option τ, v =>
    if v.isNull then .ok none
    else (τ.decode v).map some

end ColumnType

end RowDerive
