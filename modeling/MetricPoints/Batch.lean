import MetricPoints.Attribute

/-
  Batches: what comes in. A batch holds resources, a resource holds scopes, a scope holds metrics,
  and a metric holds data points of one kind. Measured values are of type `V`; times are in
  nanoseconds.
-/

namespace MetricPoints

/-- Whether values cover the time since the last report or since the start. -/
inductive Temporality where
  | delta
  | cumulative
  deriving DecidableEq, Repr

/-- The temporality with a code; other codes are not supported. -/
def Temporality.ofCode? : Int → Option Temporality
  | 1 => some .delta
  | 2 => some .cumulative
  | _ => none

/-- A data point: a value of some kind at a time. -/
structure DataPoint (α : Type) where
  time : Nat
  attributes : List Attribute
  flags : Nat
  value : α

/-- Says whether a value was recorded at all: the lowest flag says that there is none. -/
def DataPoint.recorded {α : Type} (point : DataPoint α) : Bool := point.flags % 2 = 0

/-- A number as it was sent. -/
inductive Number (V : Type) where
  | integer (i : Int)
  | real (v : V)

/-- How many values there were, with their sum, minimum and maximum as far as they are told. -/
structure Stats (V : Type) where
  count : Nat
  sum : Option V
  min : Option V
  max : Option V
  deriving DecidableEq, Repr

/-- A histogram whose buckets lie between explicit bounds. -/
structure Histogram (V : Type) where
  stats : Stats V
  bounds : List Float
  counts : List Nat

/-- Consecutive exponential buckets; `offset` is the index of the first one. -/
structure Buckets where
  offset : Int
  counts : List Nat
  deriving DecidableEq, Repr

/-- A histogram with exponential buckets on both sides of zero. -/
structure ExponentialHistogram (V : Type) where
  stats : Stats V
  scale : Int
  zeros : Nat
  positive : Option Buckets
  negative : Option Buckets

/-- A summary: a count, a sum, and values at quantiles. -/
structure Summary (V : Type) where
  count : Nat
  sum : V
  quantiles : List (Float × V)

/-- The data of a metric. Temporalities are given by their codes. -/
inductive MetricData (V : Type) where
  | unknown
  | gauge (points : List (DataPoint (Option (Number V))))
  | sum (temporality : Int) (monotonic : Bool) (points : List (DataPoint (Option (Number V))))
  | histogram (temporality : Int) (points : List (DataPoint (Histogram V)))
  | exponential (temporality : Int) (points : List (DataPoint (ExponentialHistogram V)))
  | summary (points : List (DataPoint (Summary V)))

/-- A metric: a name with data. -/
structure Metric (V : Type) where
  name : String
  data : MetricData V

/-- What produced the metrics of a scope. -/
structure Scope where
  name : String
  version : String
  attributes : List Attribute

/-- The metrics of one scope. -/
structure ScopeMetrics (V : Type) where
  scope : Option Scope
  metrics : List (Metric V)

/-- The scopes of one resource, which is known by its attributes. -/
structure ResourceMetrics (V : Type) where
  attributes : List Attribute
  scopes : List (ScopeMetrics V)

end MetricPoints
