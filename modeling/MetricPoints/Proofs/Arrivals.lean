import Mathlib.Data.List.Forall2
import MetricPoints.Plan.Aggregated
import MetricPoints.Proofs.Planned
import MetricPoints.Station

/-
  Arrivals: data points that stand for many values, taken up one by one at a station whose clock is
  set ahead and whose tracker is swept in between. What such a run yields is listed arrival by
  arrival (`outcomes`), and two runs are compared along these lists (`Matched`). Where a relation
  between trackers survives sweeps and data points, and gives related outcomes (`Coupled`), whole
  runs are matched.

  Main statement: `Coupled.matched`.
-/

namespace MetricPoints

variable {V : Type}

/-- Samples are of the time of their data point. -/
theorem Planned.time_of_mem_samples [Amount V] {settings : Settings} {base : Labels} {time : Nat}
    {measured : Measured V} {step : Step V} (h : Planned settings base time measured step)
    {sample : Sample V} (hm : sample ∈ step.samples) : sample.time = time := by
  cases h with
  | notice | gauge | standing | count | statistic | distribution | quantile =>
    exact absurd hm List.not_mem_nil
  | total | summaryCount | summarySum => rw [List.mem_singleton.mp hm]
  | aggregate =>
    obtain ⟨statistic, value, -, rfl⟩ := Aggregates.mem_samples.mp hm
    rfl
  | @bucket _ temporality =>
    cases temporality with
    | delta => exact absurd hm List.not_mem_nil
    | cumulative => rw [List.mem_singleton.mp hm]

/-- A data point that stands for many values, with its labels and its time. -/
structure Arrival (V : Type) where
  labels : Labels
  time : Nat
  value : Aggregated V

/-- What can happen between the data points of a run: time passes, or the tracker is swept. -/
inductive Happening (V : Type) where
  | arrive (arrival : Arrival V)
  | advance (nanoseconds : Nat)
  | sweep

namespace Arrival

/-- The plan for a data point. -/
def plan [Amount V] (settings : Settings) (arrival : Arrival V) : Plan V :=
  arrival.value.plan settings arrival.labels arrival.time

/-- What the data point measures, as part of a batch. -/
def measured (arrival : Arrival V) : Measured V :=
  match arrival.value with
  | .histogram .delta h => .histogram 1 h
  | .histogram .cumulative h => .histogram 2 h
  | .exponential h => .exponential 1 h
  | .summary s => .summary s

variable [Amount V] {settings : Settings} {arrival : Arrival V}

/-- Every step of the plan of a data point is one of those that can be planned for it. -/
theorem planned_of_mem {step : Step V} (h : step ∈ arrival.plan settings) :
    Planned settings arrival.labels arrival.time arrival.measured step := by
  obtain ⟨labels, time, value⟩ := arrival
  cases value with
  | histogram temporality histogram =>
    cases temporality with
    | delta => exact Histogram.planned_of_mem rfl h
    | cumulative => exact Histogram.planned_of_mem rfl h
  | exponential histogram => exact ExponentialHistogram.planned_of_mem rfl h
  | summary summary => exact Summary.planned_of_mem h

/-- The samples of a data point are of its time. -/
theorem time_of_mem_samples {sample : Sample V} (h : sample ∈ (arrival.plan settings).samples) :
    sample.time = arrival.time := by
  obtain ⟨step, hs, hm⟩ := List.mem_flatMap.mp h
  exact (planned_of_mem hs).time_of_mem_samples hm

end Arrival

namespace Happening

/-- The data point, if one arrives. -/
def arrival? : Happening V → Option (Arrival V)
  | arrive arrival => some arrival
  | _ => none

/-- Says whether the tracker is swept. -/
def sweeps : Happening V → Bool
  | sweep => true
  | _ => false

/-- What is done at the station. -/
def action [Amount V] (settings : Settings) : Happening V → Action V
  | arrive arrival => .run (arrival.plan settings)
  | advance n => .advance n
  | sweep => .sweep

end Happening

/-- The outcome, where an answer holds one. -/
def Answer.outcome? : Answer V → Option (Outcome V)
  | .outcome value => some value
  | _ => none

namespace Station

variable [Amount V]

/-- Every data point of a run with the outcome that the station answers. -/
def outcomes (settings : Settings) (station : Station V) (happenings : List (Happening V)) :
    List (Arrival V × Outcome V) :=
  (happenings.filterMap Happening.arrival?).zip
    ((station.acts (happenings.map (Happening.action settings))).filterMap
      fun done => done.1.outcome?)

@[simp] theorem outcomes_arrive (settings : Settings) (station : Station V) (arrival : Arrival V)
    (rest : List (Happening V)) :
    station.outcomes settings (.arrive arrival :: rest) =
      (arrival, (Plan.run station.now (arrival.plan settings) station.tracker).1) ::
        (station.act (.run (arrival.plan settings))).2.outcomes settings rest := rfl

@[simp] theorem outcomes_advance (settings : Settings) (station : Station V) (n : Nat)
    (rest : List (Happening V)) :
    station.outcomes settings (.advance n :: rest) =
      (station.act (.advance n)).2.outcomes settings rest := rfl

@[simp] theorem outcomes_sweep (settings : Settings) (station : Station V)
    (rest : List (Happening V)) :
    station.outcomes settings (.sweep :: rest) =
      (station.act .sweep).2.outcomes settings rest := rfl

end Station

/-- Two lists of outcomes for the same data points, related one by one. -/
def Matched (R : Arrival V → Outcome V → Outcome V → Prop) :
    List (Arrival V × Outcome V) → List (Arrival V × Outcome V) → Prop :=
  List.Forall₂ fun left right => left.1 = right.1 ∧ R left.1 left.2 right.2

/-- Two settings under which related trackers stay related, and what they make of a data point is
related too. -/
structure Coupled [Amount V] (settings other : Settings) (R : Tracker V → Tracker V → Prop)
    (Q : Arrival V → Outcome V → Outcome V → Prop) : Prop where
  sweep {left right : Tracker V} (h : R left right) (now : Nat) :
    R (left.sweep now) (right.sweep now)
  outcome {left right : Tracker V} (h : R left right) (now : Nat) (arrival : Arrival V) :
    Q arrival (Plan.run now (arrival.plan settings) left).1
      (Plan.run now (arrival.plan other) right).1
  tracker {left right : Tracker V} (h : R left right) (now : Nat) (arrival : Arrival V) :
    R (Plan.run now (arrival.plan settings) left).2 (Plan.run now (arrival.plan other) right).2

/-- Runs from related trackers on the same clock are matched. -/
theorem Coupled.matched [Amount V] {settings other : Settings} {R : Tracker V → Tracker V → Prop}
    {Q : Arrival V → Outcome V → Outcome V → Prop} (h : Coupled settings other R Q)
    {left right : Station V} (hclock : left.clock = right.clock)
    (htracker : R left.tracker right.tracker) (happenings : List (Happening V)) :
    Matched Q (left.outcomes settings happenings) (right.outcomes other happenings) := by
  induction happenings generalizing left right with
  | nil => exact .nil
  | cons happening rest ih =>
    have hnow : left.now = right.now := congrArg UInt64.toNat hclock
    cases happening with
    | arrive arrival =>
      have hc := h.outcome htracker left.now arrival
      have ht := h.tracker htracker left.now arrival
      rw [Station.outcomes_arrive, Station.outcomes_arrive, ← hnow]
      refine .cons ⟨rfl, hc⟩ (ih hclock ?_)
      show R _ (Plan.run right.now _ _).2
      rw [← hnow]
      exact ht
    | advance n =>
      rw [Station.outcomes_advance, Station.outcomes_advance]
      exact ih (congrArg (· + UInt64.ofNat n) hclock) htracker
    | sweep =>
      rw [Station.outcomes_sweep, Station.outcomes_sweep]
      refine ih hclock ?_
      have hs := h.sweep htracker left.now
      show R _ (right.tracker.sweep right.now)
      rw [← hnow]
      exact hs

end MetricPoints
