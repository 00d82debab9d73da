import MetricPoints.Plan.Histogram
import MetricPoints.Plan.Summary

/-
  Plans for values that stand for many: histograms of both kinds, and summaries.
-/

namespace MetricPoints

variable {V : Type}

/-- A value that stands for many. An exponential histogram covers the time since the last report, a
summary the time since the start. -/
inductive Aggregated (V : Type) where
  | histogram (temporality : Temporality) (h : Histogram V)
  | exponential (h : ExponentialHistogram V)
  | summary (s : Summary V)

namespace Aggregated

/-- The plan for a value that stands for many, with the labels of its data point. -/
def plan [Amount V] (settings : Settings) (labels : Labels) (time : Nat) : Aggregated V → Plan V
  | .histogram temporality h => h.plan settings labels time temporality
  | .exponential h => h.plan settings labels time
  | .summary s => s.plan settings labels time

/-- The plan for a data point, whose attributes come first among the tags. -/
def pointPlan {α : Type} [Amount V] (settings : Settings) (labels : Labels)
    (aggregated : α → Aggregated V) (point : DataPoint α) : Plan V :=
  (aggregated point.value).plan settings (labels.withAttributes point.attributes) point.time

end Aggregated

end MetricPoints
