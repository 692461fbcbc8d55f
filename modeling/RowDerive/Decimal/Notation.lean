import RowDerive.Decimal.Shortest

/-!
# How a number is laid out

A `Notation` says which numbers are written positionally and whether a whole number shows a point.
The digits are the fewest that read back.
-/

namespace RowDerive.Decimal

/-- The decisions of a written number. -/
structure Notation where
  /-- Whether a number whose leading digit has this exponent is written positionally. -/
  positional : Int → Bool
  /-- Whether a whole number in positional form ends in `.0`. -/
  pointZero : Bool

/-- Always positional, whole numbers without a point. -/
def Notation.plain : Notation := ⟨fun _ => true, false⟩

/-- Positional from `1e-4` and below `1e16`, whole numbers with a point. -/
def Notation.inspect : Notation := ⟨fun e => -4 ≤ e && e < 16, true⟩

/-- The digits of `n` in base ten. -/
def digitChars (n : Nat) : List Char := Nat.toDigits 10 n

/-- `0.00ddd`, `dd.ddd` or `ddd00`, by where the point falls. -/
def layoutPositional (pointZero : Bool) (d : Dec) : List Char :=
  let ds := digitChars d.digits
  if 0 ≤ d.exp then
    ds ++ List.replicate d.exp.toNat '0' ++ (if pointZero then ['.', '0'] else [])
  else
    let places := (-d.exp).toNat
    if places < ds.length then
      ds.take (ds.length - places) ++ ['.'] ++ ds.drop (ds.length - places)
    else
      ['0', '.'] ++ List.replicate (places - ds.length) '0' ++ ds

/-- `d.dde-7`, without a point after a lone digit. -/
def layoutScientific (d : Dec) (e : Int) : List Char :=
  let mantissa :=
    match digitChars d.digits with
    | [] => []
    | [c] => [c]
    | c :: cs => c :: '.' :: cs
  mantissa ++ ['e'] ++ (if e < 0 then ['-'] else []) ++ digitChars e.natAbs

/-- The exponent of the leading digit. -/
def Dec.leading (d : Dec) : Int := d.exp + (digitChars d.digits).length - 1

/-- The text of `d`; zero is positional. -/
def Notation.layout (ν : Notation) (d : Dec) : List Char :=
  if d.digits == 0 || ν.positional d.leading then layoutPositional ν.pointZero d
  else layoutScientific d d.leading

/-- The text of the number that `bits` stand for. -/
def Notation.render (ν : Notation) (w : Width) (bits : Nat) : String :=
  match Reading.ofBits w bits with
  | .nan => "NaN"
  | .infinite negative => if negative then "-inf" else "inf"
  | .finite negative x =>
    String.ofList ((if negative then ['-'] else []) ++ ν.layout x.shortest)

end RowDerive.Decimal
