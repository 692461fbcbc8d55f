/-!
# Binary floating-point numbers by their bits

A number is its sign and a finite `m * 2 ^ q`, or infinite, or not a number. The two widths differ in
two counts of bits only.
-/

namespace RowDerive.Decimal

/-- The power `b ^ n` of natural numbers. -/
def power (b n : Nat) : Nat := Nat.pow b n

/-- The field widths of a binary interchange format. -/
structure Width where
  /-- Bits of the exponent field. -/
  exponent : Nat
  /-- Bits of the fraction field. -/
  fraction : Nat
deriving DecidableEq, Repr

/-- The 32-bit format. -/
def Width.single : Width := ⟨8, 23⟩

/-- The 64-bit format. -/
def Width.double : Width := ⟨11, 52⟩

/-- The exponent of the unit of the fraction field at exponent field `e`; 0 and 1 share one. -/
def Width.unitExponent (w : Width) (e : Nat) : Int :=
  (if e = 0 then 1 else e : Nat) - (power 2 (w.exponent - 1) - 1 : Nat) - (w.fraction : Int)

/-- A finite number without its sign, `m * 2 ^ q`. -/
structure Magnitude where
  m : Nat
  q : Int
  /-- The gap to the number below is half the gap to the number above. -/
  narrowBelow : Bool
deriving DecidableEq, Repr

/-- What the bits of a number stand for. -/
inductive Reading where
  | nan
  | infinite (negative : Bool)
  | finite (negative : Bool) (magnitude : Magnitude)
deriving DecidableEq, Repr

/-- The number that `bits` stand for. -/
def Reading.ofBits (w : Width) (bits : Nat) : Reading :=
  let f := bits % power 2 w.fraction
  let e := bits / power 2 w.fraction % power 2 w.exponent
  let negative := bits / power 2 (w.fraction + w.exponent) % 2 == 1
  if e == power 2 w.exponent - 1 then
    if f == 0 then .infinite negative else .nan
  else
    let m := if e == 0 then f else power 2 w.fraction + f
    .finite negative ⟨m, w.unitExponent e, f == 0 && e > 1⟩

/-- Whether the bits are those of no number. -/
def isNaN (w : Width) (bits : Nat) : Bool := Reading.ofBits w bits == .nan

/-- Whether the bits are those of a zero of either sign. -/
def isZero (w : Width) (bits : Nat) : Bool := bits % power 2 (w.fraction + w.exponent) == 0

/-- Equality of numbers: nothing equals what is no number, and the two zeros are equal. -/
def same (w : Width) (a b : Nat) : Bool :=
  !isNaN w a && !isNaN w b && (a == b || (isZero w a && isZero w b))

end RowDerive.Decimal
