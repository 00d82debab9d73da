import MetricPoints.Plan
import MetricPoints.Settings

/-
  Plans for histograms. Statistics are reported as series of their own where the settings ask for
  it or where buckets are left out; buckets are reported one by one or as a distribution.
  Numbers that are not finite are left out with a remark. There is one bucket more than bounds
  (`length_bucketEdges`).
-/

namespace MetricPoints

variable {V : Type} [Amount V]

namespace Stats

/-- The statistics that are finite. -/
def finite (stats : Stats V) : Stats V :=
  { stats with
    sum := stats.sum.filter Amount.finite
    min := stats.min.filter Amount.finite
    max := stats.max.filter Amount.finite }

/-- A remark for every statistic that is not finite. -/
def remarks (stats : Stats V) (labels : Labels) : Plan V :=
  [(Statistic.sum, stats.sum), (.min, stats.min), (.max, stats.max)].filterMap fun e =>
    (e.2.filter fun v => !Amount.finite v).map fun v =>
      .note (.remark (.unusableStatistic labels.name e.1.name v))

/-- All that remarks plan is to note them. -/
theorem remark_of_mem_remarks {stats : Stats V} {labels : Labels} {step : Step V}
    (h : step ∈ stats.remarks labels) : ∃ remark, step = .note (.remark remark) := by
  obtain ⟨entry, -, he⟩ := List.mem_filterMap.mp h
  obtain ⟨value, -, rfl⟩ := Option.map_eq_some_iff.mp he
  exact ⟨_, rfl⟩

end Stats

/-- The statistics of a data point as series of their own; extrema only where aggregations are
reported. -/
def Aggregates.of (settings : Settings) (labels : Labels) (time : Nat) (stats : Stats V) :
    Aggregates V :=
  let stats := stats.finite
  { labels, time
    count := Amount.ofNat stats.count
    sum := stats.sum
    min := if settings.aggregations then stats.min else none
    max := if settings.aggregations then stats.max else none }

/-- Says whether statistics are reported as series of their own. -/
def Settings.showsStatistics (settings : Settings) : Bool :=
  settings.bucketMode = .omitted || settings.aggregations

/-- The plan for the statistics of a data point: as they are, or through the tracker. -/
def Stats.plan (settings : Settings) (labels : Labels) (time : Nat) (temporality : Temporality)
    (stats : Stats V) : Plan V :=
  if settings.showsStatistics then
    let aggregates := Aggregates.of settings labels time stats
    stats.remarks labels ++
      match temporality with
      | .delta => aggregates.values.map fun e => .emit (aggregates.point e.1 e.2)
      | .cumulative => [.aggregate aggregates]
  else []

/-- The plan for a distribution. -/
def Stats.distributionPlan (stats : Stats V) (labels : Labels) (time : Nat)
    (temporality : Temporality) (layout : Layout) : Plan V :=
  stats.remarks labels ++
    [.emit (.at time labels (.distribution ⟨stats.finite, temporality, layout⟩))]

namespace Histogram

/-- The texts of all bounds, open at both ends. -/
def edges (bounds : List Float) : List String := "-inf" :: bounds.map Decimal.text ++ ["inf"]

/-- The lower and the upper bound of every bucket, in order. -/
def bucketEdges (bounds : List Float) : List (String × String) :=
  (edges bounds).zip (edges bounds).tail

/-- The labels of a bucket between two bounds. -/
def bucketLabels (labels : Labels) (edge : String × String) : Labels :=
  (labels.suffixed "bucket").tagged
    [.pair "lower_bound" edge.1, .pair "upper_bound" edge.2]

/-- The plan for one bucket. -/
def bucketStep (labels : Labels) (time : Nat) (temporality : Temporality)
    (bucket : (String × String) × Nat) : Step V :=
  let labels := bucketLabels labels bucket.1
  let value := Amount.ofNat bucket.2
  match temporality with
  | .delta => .emit (.at time labels (.count value))
  | .cumulative => .track .part ⟨labels, time, value⟩

/-- The plan for the buckets one by one. There is one more of them than there are bounds. -/
def bucketPlan (labels : Labels) (time : Nat) (temporality : Temporality)
    (histogram : Histogram V) : Plan V :=
  if histogram.counts = [] then []
  else if histogram.counts.length = histogram.bounds.length + 1 then
    ((bucketEdges histogram.bounds).zip histogram.counts).map (bucketStep labels time temporality)
  else
    [.note (.remark (.mismatchedBounds labels.name histogram.counts.length
      histogram.bounds.length))]

/-- The plan for a histogram with explicit bounds. -/
def plan (settings : Settings) (labels : Labels) (time : Nat) (temporality : Temporality)
    (histogram : Histogram V) : Plan V :=
  histogram.stats.plan settings labels time temporality ++
    match settings.bucketMode with
    | .omitted => []
    | .counters => histogram.bucketPlan labels time temporality
    | .distributions =>
      histogram.stats.distributionPlan labels time temporality
        (.explicit histogram.bounds histogram.counts)

theorem length_bucketEdges (bounds : List Float) :
    (bucketEdges bounds).length = bounds.length + 1 := by
  simp [bucketEdges, edges]

end Histogram

/-- The plan for a histogram with exponential buckets. It covers the time since the last report. -/
def ExponentialHistogram.plan (settings : Settings) (labels : Labels) (time : Nat)
    (histogram : ExponentialHistogram V) : Plan V :=
  let buckets (side : Option Buckets) := side.getD ⟨0, []⟩
  histogram.stats.plan settings labels time .delta ++
    if settings.bucketMode = .omitted then []
    else
      histogram.stats.distributionPlan labels time .delta
        (.exponential histogram.scale histogram.zeros (buckets histogram.positive)
          (buckets histogram.negative))

end MetricPoints
