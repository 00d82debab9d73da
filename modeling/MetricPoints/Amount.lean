/-
  Amounts: the measured numbers. Everything that works on measured values is stated over this class,
  so that the same definitions run on 64-bit floating-point numbers and can be reasoned about in
  exact arithmetic on rationals.
-/

namespace MetricPoints

/-- What is asked of a measured number. -/
class Amount (V : Type) where
  /-- Says whether the first amount is less than the second. -/
  less : V → V → Bool
  /-- Says whether two amounts differ as numbers. -/
  differs : V → V → Bool
  /-- The difference of two amounts. -/
  minus : V → V → V
  /-- The amount of a count. -/
  ofNat : Nat → V
  /-- The amount of a whole number. -/
  ofInt : Int → V
  /-- Says whether the amount is a number at all, and not infinite. -/
  finite : V → Bool
  /-- The amount spread over a time in nanoseconds, for each second of it. -/
  perSecond : V → Nat → V

namespace Amount

/-- Nanoseconds in a second. -/
def second : Nat := 1000000000

instance : Amount Float where
  less a b := a < b
  differs a b := a != b
  minus a b := a - b
  ofNat := Float.ofNat
  ofInt := Float.ofInt
  finite := Float.isFinite
  perSecond a elapsed :=
    a / (Float.ofNat (elapsed / second) + Float.ofNat (elapsed % second) / Float.ofNat second)

instance : Amount Rat where
  less a b := a < b
  differs a b := a ≠ b
  minus a b := a - b
  ofNat n := n
  ofInt i := i
  finite _ := true
  perSecond a elapsed := a / ((elapsed : Rat) / (second : Rat))

end Amount

end MetricPoints
