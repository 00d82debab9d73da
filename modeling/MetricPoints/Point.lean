import MetricPoints.Amount
import MetricPoints.Batch
import MetricPoints.Labels

/-
  Points: what goes out, namely labels with a reading at a second.
-/

namespace MetricPoints

/-- How the values of a distribution fall into buckets, as the source reports it. -/
inductive Layout where
  | explicit (bounds : List Float) (counts : List Nat)
  | exponential (scale : Int) (zeros : Nat) (positive negative : Buckets)
  deriving DecidableEq

/-- A distribution of values. -/
structure Distribution (V : Type) where
  stats : Stats V
  temporality : Temporality
  layout : Layout
  deriving DecidableEq

/-- What a point says: a count over a time, a value at a time, a rate per second, or a
distribution. -/
inductive Reading (V : Type) where
  | count (value : V)
  | gauge (value : V)
  | rate (value : V)
  | distribution (value : Distribution V)
  deriving DecidableEq

namespace Reading

variable {V : Type}

/-- The word for the kind of a reading. -/
def kind : Reading V → String
  | count _ => "count"
  | gauge _ => "gauge"
  | rate _ => "rate"
  | distribution _ => "distribution"

/-- The number, when the reading is one. -/
def scalar? : Reading V → Option V
  | count value | gauge value | rate value => some value
  | distribution _ => none

/-- The distribution, when the reading is one. -/
def distribution? : Reading V → Option (Distribution V)
  | distribution value => some value
  | _ => none

end Reading

/-- A reading with its labels at a second. -/
structure Point (V : Type) where
  labels : Labels
  reading : Reading V
  second : Nat
  deriving DecidableEq

/-- The point of a reading at a time in nanoseconds. -/
def Point.at {V : Type} (time : Nat) (labels : Labels) (reading : Reading V) : Point V :=
  ⟨labels, reading, time / Amount.second⟩

end MetricPoints
