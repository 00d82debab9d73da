import MetricPoints.Decimal.Shortest

/-
  The text of a real number: the shortest digits that read back, always written out in full, with
  a point only before a fraction. The sign of zero is shown; the other values are `NaN`, `inf` and
  `-inf`.
-/

namespace MetricPoints.Decimal

/-- Writes `digits · 10 ^ exponent` without an exponent. -/
def positional (d : Cell.Digits) : String :=
  if 0 ≤ d.exponent then
    (d.digits * Nat.pow 10 d.exponent.toNat).repr
  else
    let places := (-d.exponent).toNat
    let digits := d.digits.repr.toList
    let padded := List.replicate (places + 1 - digits.length) '0' ++ digits
    let whole := padded.length - places
    String.ofList (padded.take whole ++ '.' :: padded.drop whole)

/-- The text of a number that is not negative, from its biased exponent and its fraction bits. -/
def unsigned (biased fraction : Nat) : String :=
  if biased = 2047 then
    if fraction = 0 then "inf" else "NaN"
  else if biased = 0 then
    if fraction = 0 then "0"
    else positional (Cell.ofBinary fraction (-1074) false).shortest
  else
    positional
      (Cell.ofBinary (Nat.pow 2 52 + fraction) ((biased : Int) - 1075)
        (fraction = 0 && 1 < biased)).shortest

/-- The text of a real number. -/
def text (x : Float) : String :=
  let bits := x.toBits.toNat
  let body := unsigned (bits / Nat.pow 2 52 % 2048) (bits % Nat.pow 2 52)
  if Nat.pow 2 63 ≤ bits && body ≠ "NaN" then "-" ++ body else body

end MetricPoints.Decimal
