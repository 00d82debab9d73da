import MetricPoints.Notice
import MetricPoints.Point
import MetricPoints.Tracker

/-
  Plans: what is to be done for a batch, as a list of steps. A plan does not depend on what was
  seen before; only running it does, because its steps submit samples to the tracker and
  report what the changes mean. Main statements: plans run one after the other (`run_append`), a
  plan leaves the tracker as its samples do (`tracker_run`), and a plan without samples is
  the same whatever was seen before (`run_of_samples_eq_nil`).
-/

namespace MetricPoints

variable {V : Type}

/-- A cumulative value of the series that the labels describe, at a time. -/
structure Sample (V : Type) where
  labels : Labels
  time : Nat
  value : V

/-- The series of a sample. -/
def Sample.series (sample : Sample V) : Series := sample.labels.series

/-- Submits samples in order and gives the change that each one means. -/
def Tracker.observeAll (tracker : Tracker V) (now : Nat) :
    List (Sample V) → List (Change V) × Tracker V
  | [] => ([], tracker)
  | sample :: rest =>
    let first := tracker.observe now sample.series sample.time sample.value
    let more := first.2.observeAll now rest
    (first.1 :: more.1, more.2)

/-- What running a plan yields: points, how many samples were late, and notices. -/
structure Outcome (V : Type) where
  points : List (Point V)
  late : Nat
  notices : List (Notice V)
  deriving DecidableEq

namespace Outcome

/-- Nothing. -/
def empty : Outcome V := ⟨[], 0, []⟩

/-- One outcome after the other. -/
def append (first second : Outcome V) : Outcome V :=
  ⟨first.points ++ second.points, first.late + second.late, first.notices ++ second.notices⟩

instance : Append (Outcome V) := ⟨append⟩

@[ext] theorem ext {a b : Outcome V} (hp : a.points = b.points) (hl : a.late = b.late)
    (hn : a.notices = b.notices) : a = b := by
  cases a; cases b; cases hp; cases hl; cases hn; rfl

@[simp] theorem points_append (a b : Outcome V) : (a ++ b).points = a.points ++ b.points := rfl

@[simp] theorem late_append (a b : Outcome V) : (a ++ b).late = a.late + b.late := rfl

@[simp] theorem notices_append (a b : Outcome V) : (a ++ b).notices = a.notices ++ b.notices := rfl

@[simp] theorem empty_append (a : Outcome V) : empty ++ a = a := by
  apply ext
  · simp [empty]
  · simp [empty]
  · simp [empty]

theorem append_assoc (a b c : Outcome V) : a ++ b ++ c = a ++ (b ++ c) := by
  apply ext
  · simp
  · simp [Nat.add_assoc]
  · simp

end Outcome

/-- What a sample stands for: a total reported by its increases or by its rate, whose late samples
are remarked on, or a part of a histogram or a summary. -/
inductive Role where
  | total
  | rate
  | part
  deriving DecidableEq, Repr

/-- What statistics of a data point there are. -/
inductive Statistic where
  | count
  | sum
  | min
  | max
  deriving DecidableEq, Repr

namespace Statistic

/-- The name of a statistic, also as a suffix. -/
def name : Statistic → String
  | count => "count"
  | sum => "sum"
  | min => "min"
  | max => "max"

/-- How a statistic is reported: counts and sums add up, extrema stand. -/
def reading (value : V) : Statistic → Reading V
  | count | sum => .count value
  | min | max => .gauge value

end Statistic

/-- The statistics of one data point that are reported as series of their own. -/
structure Aggregates (V : Type) where
  labels : Labels
  time : Nat
  count : V
  sum : Option V
  min : Option V
  max : Option V

/-- One thing to do. -/
inductive Step (V : Type) where
  | emit (point : Point V)
  | note (notice : Notice V)
  | track (role : Role) (sample : Sample V)
  | aggregate (aggregates : Aggregates V)

namespace Aggregates

/-- The statistics that are there, in order. -/
def values (a : Aggregates V) : List (Statistic × V) :=
  (.count, a.count) :: a.sum.toList.map (.sum, ·) ++ a.min.toList.map (.min, ·)
    ++ a.max.toList.map (.max, ·)

/-- The labels of one statistic. -/
def labelsOf (a : Aggregates V) (statistic : Statistic) : Labels :=
  a.labels.suffixed statistic.name

/-- The point of one statistic. -/
def point (a : Aggregates V) (statistic : Statistic) (value : V) : Point V :=
  .at a.time (a.labelsOf statistic) (statistic.reading value)

/-- The samples of the statistics, in order. -/
def samples (a : Aggregates V) : List (Sample V) :=
  a.values.map fun e => ⟨a.labelsOf e.1, a.time, e.2⟩

/-- What the changes of the statistics mean. The increases of the count and of the sum, if there is
one, are only reported together, and with them the extrema that have moved. -/
def outcome [Amount V] (a : Aggregates V) (changes : List (Change V)) : Outcome V :=
  let found (statistic : Statistic) := ((a.values.map Prod.fst).zip changes).lookup statistic
  let increase (statistic : Statistic) := (found statistic).bind Change.increase?
  let moved (statistic : Statistic) := (found statistic).any Change.moved
  let late := [Statistic.count, .sum].countP fun s => (found s).any Change.isLate
  let complete := (increase .count).isSome && (a.sum.isNone || (increase .sum).isSome)
  let points :=
    (increase .count).toList.map (a.point .count)
      ++ (increase .sum).toList.map (a.point .sum)
      ++ (a.min.filter fun _ => moved .min).toList.map (a.point .min)
      ++ (a.max.filter fun _ => moved .max).toList.map (a.point .max)
  ⟨if complete then points else [], late, []⟩

end Aggregates

namespace Role

/-- What the change of a sample means for its role. -/
def outcome [Amount V] (role : Role) (sample : Sample V) (change : Change V) : Outcome V :=
  let reading? : Option (Reading V) :=
    match role with
    | .total | .part => change.increase?.map Reading.count
    | .rate => change.rate?.map Reading.rate
  let notices :=
    if change.isLate && role ≠ .part then
      [.remark (.lateTotal sample.labels.name sample.time)]
    else []
  ⟨reading?.toList.map (.at sample.time sample.labels), if change.isLate then 1 else 0, notices⟩

end Role

namespace Step

/-- The samples that a step submits, in order. -/
def samples : Step V → List (Sample V)
  | emit _ | note _ => []
  | track _ sample => [sample]
  | aggregate a => a.samples

/-- What a step yields, given the changes that its samples mean. -/
def outcome [Amount V] (changes : List (Change V)) : Step V → Outcome V
  | emit point => ⟨[point], 0, []⟩
  | note notice => ⟨[], 0, [notice]⟩
  | track role sample => (changes.head?.map (role.outcome sample)).getD .empty
  | aggregate a => a.outcome changes

/-- Runs a step while the clock reads `now`. -/
def run [Amount V] (now : Nat) (step : Step V) (tracker : Tracker V) : Outcome V × Tracker V :=
  let observed := tracker.observeAll now step.samples
  (step.outcome observed.1, observed.2)

end Step

/-- What is to be done, in order. -/
abbrev Plan (V : Type) := List (Step V)

namespace Plan

/-- The samples that a plan submits, in order. -/
def samples (plan : Plan V) : List (Sample V) := plan.flatMap Step.samples

/-- Runs a plan while the clock reads `now`. -/
def run [Amount V] (now : Nat) : Plan V → Tracker V → Outcome V × Tracker V
  | [], tracker => (.empty, tracker)
  | step :: rest, tracker =>
    let first := step.run now tracker
    let more := run now rest first.2
    (first.1 ++ more.1, more.2)

theorem observeAll_append (tracker : Tracker V) (now : Nat) (xs ys : List (Sample V)) :
    tracker.observeAll now (xs ++ ys) =
      ((tracker.observeAll now xs).1 ++ ((tracker.observeAll now xs).2.observeAll now ys).1,
        ((tracker.observeAll now xs).2.observeAll now ys).2) := by
  induction xs generalizing tracker with
  | nil => rfl
  | cons x xs ih => simp [Tracker.observeAll, ih]

variable [Amount V]

@[simp] theorem run_nil (now : Nat) (tracker : Tracker V) :
    run now [] tracker = (.empty, tracker) := rfl

theorem run_cons (now : Nat) (step : Step V) (rest : Plan V) (tracker : Tracker V) :
    run now (step :: rest) tracker =
      ((step.run now tracker).1 ++ (run now rest (step.run now tracker).2).1,
        (run now rest (step.run now tracker).2).2) := rfl

theorem run_append (now : Nat) (p q : Plan V) (tracker : Tracker V) :
    run now (p ++ q) tracker =
      ((run now p tracker).1 ++ (run now q (run now p tracker).2).1,
        (run now q (run now p tracker).2).2) := by
  induction p generalizing tracker with
  | nil => simp
  | cons step rest ih => simp [run_cons, ih, Outcome.append_assoc]

omit [Amount V] in
@[simp] theorem samples_cons (step : Step V) (rest : Plan V) :
    samples (step :: rest) = step.samples ++ samples rest := rfl

/-- A plan leaves the tracker as its samples do. -/
theorem tracker_run (now : Nat) (plan : Plan V) (tracker : Tracker V) :
    (run now plan tracker).2 = (tracker.observeAll now plan.samples).2 := by
  induction plan generalizing tracker with
  | nil => rfl
  | cons step rest ih =>
    rw [run_cons, ih, samples_cons, observeAll_append]
    rfl

/-- A plan without samples never looks at the tracker. -/
theorem run_of_samples_eq_nil (now : Nat) {plan : Plan V} (h : plan.samples = [])
    (tracker other : Tracker V) :
    (run now plan tracker).1 = (run now plan other).1 ∧ (run now plan tracker).2 = tracker := by
  constructor
  · induction plan generalizing tracker other with
    | nil => rfl
    | cons step rest ih =>
      rw [samples_cons, List.append_eq_nil_iff] at h
      have hs (t : Tracker V) : step.run now t = (step.outcome [], t) := by
        simp [Step.run, h.1, Tracker.observeAll]
      rw [run_cons, run_cons, hs, hs]
      simp only [ih h.2 tracker other]
  · rw [tracker_run, h]
    rfl

end Plan

end MetricPoints
