import MetricPoints.Plan

/-
  Plans for numbers: gauges, sums of a time and running totals. A number that is not finite is left
  out with a remark, a missing one silently.
-/

namespace MetricPoints

variable {V : Type} [Amount V]

/-- The amount of a number. -/
def Number.amount : Number V → V
  | .integer i => Amount.ofInt i
  | .real v => v

/-- What to do with a number that is there: `use` for a finite one, else a remark. -/
def Number.step (labels : Labels) (use : V → Step V) (number : Number V) : Step V :=
  if Amount.finite number.amount then use number.amount
  else .note (.remark (.unusableNumber labels.name number.amount))

/-- Totals with these names are rates already, for each second. -/
def rateNames : List String :=
  ["kafka.net.bytes_out.rate", "kafka.net.bytes_in.rate", "kafka.replication.isr_shrinks.rate",
   "kafka.replication.isr_expands.rate", "kafka.replication.leader_elections.rate",
   "jvm.gc.minor_collection_count", "jvm.gc.major_collection_count",
   "jvm.gc.minor_collection_time", "jvm.gc.major_collection_time", "kafka.messages_in.rate",
   "kafka.request.produce.failed.rate", "kafka.request.fetch.failed.rate",
   "kafka.replication.unclean_leader_elections.rate", "kafka.log.flush_rate.rate"]

namespace NumberPoint

/-- The plan for a number that is reported as it is. -/
def plan (reading : V → Reading V) (labels : Labels) (point : DataPoint (Option (Number V))) :
    Plan V :=
  let labels := labels.withAttributes point.attributes
  point.value.toList.map (Number.step labels fun v => .emit (.at point.time labels (reading v)))

/-- The plan for a running total. -/
def totalPlan (labels : Labels) (point : DataPoint (Option (Number V))) : Plan V :=
  let role : Role := if labels.name ∈ rateNames then .rate else .total
  let labels := labels.withAttributes point.attributes
  point.value.toList.map (Number.step labels fun v => .track role ⟨labels, point.time, v⟩)

end NumberPoint

end MetricPoints
