import RowDerive.Decimal.Binary

/-!
# The fewest digits that read back

A finite number stands for all reals that round to it. Of the decimals among them, the one with the
fewest digits is chosen, of two such the nearer, and of two as near the greater. All arithmetic is
exact.
-/

namespace RowDerive.Decimal

/-- The decimal `digits * 10 ^ exp`. -/
structure Dec where
  digits : Nat
  exp : Int
deriving DecidableEq, Repr

/-- Compares `a * 10 ^ i` with `n * 2 ^ j`. -/
def compareScaled (a : Nat) (i : Int) (n : Nat) (j : Int) : Ordering :=
  compare (a * power 10 i.toNat * power 2 (-j).toNat)
    (n * power 2 j.toNat * power 10 (-i).toNat)

namespace Magnitude

/-- Whether `d` rounds to `x`: it lies between the points halfway to the numbers on either side, or
on one of them if `m` is even. -/
def readsBack (x : Magnitude) (d : Dec) : Bool :=
  let low := if x.narrowBelow then 4 * x.m - 1 else 4 * x.m - 2
  let fromLow := compareScaled d.digits d.exp low (x.q - 2)
  let fromHigh := compareScaled d.digits d.exp (4 * x.m + 2) (x.q - 2)
  let closed := x.m % 2 == 0
  (fromLow == .gt || (closed && fromLow == .eq)) && (fromHigh == .lt || (closed && fromHigh == .eq))

/-- Raises `k` until `x` lies below `10 ^ k`, at most `fuel` times. -/
def scaleFrom (x : Magnitude) : Nat → Int → Int
  | 0, k => k
  | fuel + 1, k => if compareScaled 1 k x.m x.q == .gt then k else scaleFrom x fuel (k + 1)

/-- The least `k` with `x` below `10 ^ k`. The start is a lower bound, found from the bit length. -/
def scale (x : Magnitude) : Int :=
  x.scaleFrom 8 (((x.m.log2 : Int) + x.q) * 30103 / 100000 - 1)

/-- The greatest multiple of `10 ^ g` not above `x`, counted in `10 ^ g`. -/
def gridBelow (x : Magnitude) (g : Int) : Nat :=
  (x.m * power 2 x.q.toNat * power 10 (-g).toNat) / (power 2 (-x.q).toNat * power 10 g.toNat)

/-- The decimal that reads back as `x` on the grid of `10 ^ g`: the nearer of the neighbours, the
greater of two as near. -/
def onGrid? (x : Magnitude) (g : Int) : Option Dec :=
  let low : Dec := ⟨x.gridBelow g, g⟩
  let high : Dec := ⟨x.gridBelow g + 1, g⟩
  match x.readsBack low, x.readsBack high with
  | true, true =>
    if compareScaled (low.digits + high.digits) g (2 * x.m) x.q == .gt then some low else some high
  | true, false => some low
  | false, true => some high
  | false, false => none

/-- The value of `x` itself, written out. -/
def exact (x : Magnitude) : Dec :=
  if 0 ≤ x.q then ⟨x.m * power 2 x.q.toNat, 0⟩ else ⟨x.m * power 5 (-x.q).toNat, x.q⟩

end Magnitude

/-- Moves zeros at the end of the digits into the exponent, at most `fuel` of them. -/
def Dec.strip : Nat → Dec → Dec
  | 0, d => d
  | fuel + 1, d =>
    if d.digits % 10 == 0 && d.digits != 0 then Dec.strip fuel ⟨d.digits / 10, d.exp + 1⟩ else d

/-- The decimal with the fewest digits that reads back as `x`. Seventeen digits do for the widest
format. -/
def Magnitude.shortest (x : Magnitude) : Dec :=
  if x.m == 0 then ⟨0, 0⟩
  else
    let k := x.scale
    let found := (List.range 17).findSome? fun n => x.onGrid? (k - (n + 1 : Nat))
    Dec.strip 17 (found.getD x.exact)

end RowDerive.Decimal
