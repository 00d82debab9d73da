import MetricPoints.Plan
import MetricPoints.Settings

/-
  Plans for summaries. Count and sum are totals and go through the tracker each on its own;
  quantiles are gauges, reported where the settings ask for them.
-/

namespace MetricPoints.Summary

variable {V : Type} [Amount V]

/-- The plan for the value at one quantile. -/
def quantileStep (labels : Labels) (time : Nat) (entry : Float × V) : Step V :=
  if Amount.finite entry.2 then
    .emit (.at time
      ((labels.suffixed "quantile").tagged [.pair "quantile" (Decimal.text entry.1)])
      (.gauge entry.2))
  else
    .note (.remark (.unusableQuantile labels.name entry.1))

/-- The plan for the sum. -/
def sumStep (labels : Labels) (time : Nat) (sum : V) : Step V :=
  if Amount.finite sum then .track .part ⟨labels.suffixed "sum", time, sum⟩
  else .note (.remark (.unusableSummarySum labels.name sum))

/-- The plan for a summary. -/
def plan (settings : Settings) (labels : Labels) (time : Nat) (summary : Summary V) : Plan V :=
  .track .part ⟨labels.suffixed "count", time, Amount.ofNat summary.count⟩
    :: sumStep labels time summary.sum
    :: if settings.quantiles then summary.quantiles.map (quantileStep labels time) else []

end MetricPoints.Summary
