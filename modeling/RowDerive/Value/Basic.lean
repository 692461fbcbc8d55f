import RowDerive.Decimal.Binary

/-!
# Column values

A value is null or one of nine kinds of data. The floating-point kinds hold the bits of their number,
so that equality of values in the logic is exact; `Value.same` is the comparison of numbers, in which
nothing equals what is no number and the two zeros are equal.
-/

namespace RowDerive

/-- The kinds of column values. -/
inductive Kind where
  | null
  | bool
  | byte
  | short
  | int
  | long
  | float
  | double
  | text
  | blob
deriving DecidableEq, Repr

namespace Kind

/-- The kind as an error message names it. -/
def name : Kind → String
  | null => "null"
  | bool => "bool"
  | byte => "byte"
  | short => "short"
  | int => "int"
  | long => "long"
  | float => "float"
  | double => "double"
  | text => "text"
  | blob => "blob"

/-- The kind as an inspected value names it. -/
def label : Kind → String
  | null => "Null"
  | bool => "Bool"
  | byte => "Byte"
  | short => "Short"
  | int => "Int"
  | long => "Long"
  | float => "Float"
  | double => "Double"
  | text => "Text"
  | blob => "Blob"

end Kind

/-- A value stored in a column. -/
inductive Value where
  | null
  | bool (b : Bool)
  | byte (n : Int8)
  | short (n : Int16)
  | int (n : Int32)
  | long (n : Int64)
  | float (bits : UInt32)
  | double (bits : UInt64)
  | text (s : String)
  | blob (bytes : List UInt8)
deriving DecidableEq, Repr

namespace Value

def kind : Value → Kind
  | null => .null
  | bool _ => .bool
  | byte _ => .byte
  | short _ => .short
  | int _ => .int
  | long _ => .long
  | float _ => .float
  | double _ => .double
  | text _ => .text
  | blob _ => .blob

def isNull : Value → Bool
  | null => true
  | _ => false

@[simp] theorem isNull_iff (v : Value) : v.isNull = true ↔ v = null := by
  cases v <;> simp [isNull]

/-- Whether the value is a floating-point datum that is no number. -/
def isNaN : Value → Bool
  | float bits => Decimal.isNaN .single bits.toNat
  | double bits => Decimal.isNaN .double bits.toNat
  | _ => false

/-- Comparison of values: by kind and data, floating-point data as numbers. -/
def same : Value → Value → Bool
  | float a, float b => Decimal.same .single a.toNat b.toNat
  | double a, double b => Decimal.same .double a.toNat b.toNat
  | a, b => a == b

end Value

end RowDerive
