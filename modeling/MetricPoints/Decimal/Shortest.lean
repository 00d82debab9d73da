/-
  The shortest decimal that reads back to a binary floating-point number. A number is given by the
  interval of reals that round to it, and decimals are points of a grid of powers of ten: the
  coarsest grid with a point in the interval wins, and of two points on it the nearer one, the
  upper one in a tie. Main statement: a point that is chosen lies in the interval
  (`holds_of_nearest?`).
-/

namespace MetricPoints.Decimal

/-- The reals that round to one number: from `low` to `high` around `mid`, all over `unit`. The ends
belong to it when it is `closed`. -/
structure Cell where
  low : Nat
  mid : Nat
  high : Nat
  unit : Nat
  closed : Bool
  deriving DecidableEq, Repr

namespace Cell

/-- The cell of `mantissa · 2 ^ exponent`. Below a power of two the neighbours are half as far away,
which `narrow` says. The ends belong to it when the mantissa is even. -/
def ofBinary (mantissa : Nat) (exponent : Int) (narrow : Bool) : Cell :=
  let up := Nat.pow 2 (exponent - 2).toNat
  { low := (4 * mantissa - if narrow then 1 else 2) * up
    mid := 4 * mantissa * up
    high := (4 * mantissa + 2) * up
    unit := Nat.pow 2 (2 - exponent).toNat
    closed := mantissa % 2 = 0 }

/-- The cell in grid units: `grid` is the exponent of the power of ten between grid points. -/
def scale (cell : Cell) (grid : Int) : Cell :=
  let finer := Nat.pow 10 (-grid).toNat
  { cell with
    low := cell.low * finer
    mid := cell.mid * finer
    high := cell.high * finer
    unit := cell.unit * Nat.pow 10 grid.toNat }

/-- Says whether the cell holds the whole number `k`. -/
def holds (cell : Cell) (k : Nat) : Bool :=
  if cell.closed then
    cell.low ≤ k * cell.unit && k * cell.unit ≤ cell.high
  else
    cell.low < k * cell.unit && k * cell.unit < cell.high

/-- The whole number in the cell that is nearest to its middle. -/
def nearest? (cell : Cell) : Option Nat :=
  let below := cell.mid / cell.unit
  let above := below + 1
  let upper := cell.unit ≤ 2 * (cell.mid % cell.unit)
  match cell.holds below, cell.holds above with
  | true, true => some (if upper then above else below)
  | true, false => some below
  | false, true => some above
  | false, false => none

theorem holds_of_nearest? {cell : Cell} {k : Nat} (h : cell.nearest? = some k) :
    cell.holds k = true := by
  unfold nearest? at h
  dsimp only at h
  split at h
  · rename_i hb ha
    injection h with h
    subst h
    split
    · exact ha
    · exact hb
  · rename_i hb _
    injection h with h
    exact h ▸ hb
  · rename_i _ ha
    injection h with h
    exact h ▸ ha
  · cases h

/-- The exponent `p` with `10 ^ (p - 1) ≤ mid / unit < 10 ^ p`. -/
def magnitude (cell : Cell) : Int :=
  if cell.unit ≤ cell.mid then
    ((cell.mid / cell.unit).repr.length : Int)
  else
    let p := (cell.unit / cell.mid).repr.length
    if cell.mid * Nat.pow 10 (p - 1) = cell.unit then 2 - (p : Int) else 1 - (p : Int)

/-- Whole digits and the power of ten they count. -/
structure Digits where
  digits : Nat
  exponent : Int
  deriving DecidableEq, Repr

/-- The shortest decimal in the cell; seventeen digits always suffice for a 64-bit number. -/
def shortest (cell : Cell) : Digits :=
  let p := cell.magnitude
  let found := (List.range 18).findSome? fun i : Nat =>
    let grid := p - (i : Int)
    ((cell.scale grid).nearest?).map (⟨·, grid⟩)
  found.getD ⟨0, 0⟩

end Cell

end MetricPoints.Decimal
