import Mathlib.Tactic.Linarith
import MetricPoints.Proofs.Statistics

/-
  What the counts of a histogram add up to. Over a run with increasing times an increase of the
  count is passed over at most once, when a sum turns up for the first time. The invariant is what
  is stored: the count of the last report, and a sum exactly if a report had one (`Standing`).

  Main statement: `statistics_conserve`.
-/

namespace MetricPoints

variable {V : Type}

/-- A turn of a run: a report of one histogram, or whatever else is done. -/
inductive Turn (V : Type) where
  | report (now time : Nat) (histogram : Histogram V)
  | other (now : Nat) (plan : Plan V)

namespace Turn

/-- What is run in a turn, and when. The reports are of the histogram with these labels. -/
def timed [Amount V] (settings : Settings) (labels : Labels) : Turn V → Nat × Plan V
  | report now time histogram => (now, histogram.plan settings labels time .cumulative)
  | other now plan => (now, plan)

/-- The statistics that are reported, with their time. -/
def report? : Turn V → Option (Nat × Stats V)
  | report _ time histogram => some (time, histogram.stats)
  | other _ _ => none

/-- The counts in what a report gives. -/
def counts (labels : Labels) (outcome : Outcome V) : Turn V → List V
  | report _ _ _ =>
    (pointsAt (labels.suffixed Statistic.count.name) outcome.points).filterMap
      (·.reading.scalar?)
  | other _ _ => []

/-- Says whether a turn leaves count and sum of the histogram alone, unless it is a report. -/
def Apart (labels : Labels) : Turn V → Prop
  | report _ _ _ => True
  | other _ plan => ∀ sample ∈ plan.samples,
      sample.series ≠ (labels.suffixed Statistic.count.name).series ∧
        sample.series ≠ (labels.suffixed Statistic.sum.name).series

end Turn

/-- The reports of a run. -/
def reportsOf (turns : List (Turn V)) : List (Nat × Stats V) := turns.filterMap Turn.report?

@[simp] theorem reportsOf_report (now time : Nat) (histogram : Histogram V)
    (rest : List (Turn V)) :
    reportsOf (.report now time histogram :: rest) = (time, histogram.stats) :: reportsOf rest :=
  rfl

@[simp] theorem reportsOf_other (now : Nat) (plan : Plan V) (rest : List (Turn V)) :
    reportsOf (.other now plan :: rest) = reportsOf rest := rfl

/-- The counts that the reports of a run give, in order. -/
def emittedCounts [Amount V] (settings : Settings) (labels : Labels) (turns : List (Turn V))
    (tracker : Tracker V) : List V :=
  (turns.zip (Plan.runEach (turns.map (Turn.timed settings labels)) tracker).1).flatMap
    fun e => e.1.counts labels e.2

/-- The increase of the count in the first of these reports that has a sum. -/
def passedAfter [Amount V] (count : Nat) : List (Stats V) → Rat
  | [] => 0
  | stats :: rest =>
    if stats.finite.sum.isSome then (stats.count : Rat) - count else passedAfter stats.count rest

/-- The increase of the count that is passed over: that of the first report with a sum, if there is
one and it is not the first report of all. -/
def passed [Amount V] : List (Stats V) → Rat
  | [] => 0
  | first :: rest => if first.finite.sum.isSome then 0 else passedAfter first.count rest

theorem emittedCounts_cons [Amount V] (settings : Settings) (labels : Labels) (turn : Turn V)
    (rest : List (Turn V)) (tracker : Tracker V) :
    emittedCounts settings labels (turn :: rest) tracker =
      turn.counts labels
          (Plan.run (turn.timed settings labels).1 (turn.timed settings labels).2 tracker).1 ++
        emittedCounts settings labels rest
          (Plan.run (turn.timed settings labels).1 (turn.timed settings labels).2 tracker).2 := rfl

/-- What is stored between the reports of a histogram: the count of the last one, and a sum that is
not newer, if there was one. -/
structure Standing (labels : Labels) (time count : Nat) (tracker : Tracker Rat) : Prop where
  count : tracker.stored? (labels.suffixed Statistic.count.name).series = some ⟨time, count⟩
  sum : ∀ held, tracker.stored? (labels.suffixed Statistic.sum.name).series = some held →
    held.time ≤ time

namespace Standing

variable {labels : Labels} {time count : Nat} {tracker : Tracker Rat}

/-- The count of a later report increases by what was counted since. -/
theorem increase?_count (h : Standing labels time count tracker) (settings : Settings) {next : Nat}
    (ht : time < next) {stats : Stats Rat} (hc : count ≤ stats.count) :
    (Aggregates.of settings labels next stats).increase? tracker .count =
      some ((stats.count : Rat) - count) := by
  have hstored : tracker.stored?
      ((Aggregates.of settings labels next stats).labelsOf .count).series =
        some ⟨time, count⟩ := h.count
  have hlate : ¬ (Aggregates.of settings labels next stats).time ≤ time := Nat.not_le_of_lt ht
  have hless : ¬ (stats.count : Rat) < count := by
    have : (count : Rat) ≤ stats.count := by exact_mod_cast hc
    linarith
  rw [Aggregates.increase?, Aggregates.change?_eq, hstored]
  simp only [if_neg hlate]
  show some (if decide ((stats.count : Rat) < count) then _ else _) = _
  rw [decide_eq_false hless]
  rfl

/-- The sum of a later report has an increase exactly if a sum is stored. -/
theorem isSome_increase?_sum (h : Standing labels time count tracker) (settings : Settings)
    {next : Nat} (ht : time < next) (stats : Stats Rat) :
    ((Aggregates.of settings labels next stats).increase? tracker .sum).isSome =
      (stats.finite.sum.isSome &&
        (tracker.stored? (labels.suffixed Statistic.sum.name).series).isSome) := by
  rw [Aggregates.isSome_increase?]
  show (stats.finite.sum.isSome &&
    (tracker.stored? (labels.suffixed Statistic.sum.name).series).any (·.time < next)) = _
  cases hs : tracker.stored? (labels.suffixed Statistic.sum.name).series with
  | none => rfl
  | some held =>
    have := h.sum held hs
    simp only [Option.any_some, Option.isSome_some]
    rw [decide_eq_true (by omega)]

end Standing

section Run

variable {settings : Settings} (hshow : settings.showsStatistics = true) (labels : Labels)

include hshow

/-- The counts that a report gives. -/
theorem counts_report (now time : Nat) (histogram : Histogram Rat) (tracker : Tracker Rat) :
    (Turn.report now time histogram).counts labels
        (Plan.run now (histogram.plan settings labels time .cumulative) tracker).1 =
      let a := Aggregates.of settings labels time histogram.stats
      if a.sum.isNone || (a.increase? tracker .sum).isSome then
        (a.increase? tracker .count).toList
      else [] := by
  have hp := histogram.pointsAt_run_plan hshow labels time now tracker .count
  have hc := (Aggregates.of settings labels time histogram.stats).pointsAt_count tracker
  simp only [Turn.counts]
  rw [hp]
  refine (congrArg (List.filterMap (·.reading.scalar?)) hc).trans ?_
  split
  · cases (Aggregates.of settings labels time histogram.stats).increase? tracker .count <;> rfl
  · rfl

/-- The first report of a count gives nothing. -/
theorem counts_report_of_unseen (now time : Nat) (histogram : Histogram Rat)
    {tracker : Tracker Rat}
    (h : tracker.stored? (labels.suffixed Statistic.count.name).series = none) :
    (Turn.report now time histogram).counts labels
      (Plan.run now (histogram.plan settings labels time .cumulative) tracker).1 = [] := by
  let a := Aggregates.of settings labels time histogram.stats
  have hnone : a.increase? tracker .count = none := by
    have hstored : tracker.stored? (a.labelsOf .count).series = none := h
    rw [Aggregates.increase?, Aggregates.change?_eq, hstored]
    rfl
  rw [counts_report hshow]
  simp only
  rw [hnone, Option.toList_none, ite_self]

/-- A report without a sum, or with one that is stored already, gives the increase of the count;
otherwise it gives nothing. -/
theorem Standing.counts_report {tracker : Tracker Rat} {time count : Nat}
    (h : Standing labels time count tracker) (now next : Nat) (histogram : Histogram Rat)
    (ht : time < next) (hc : count ≤ histogram.stats.count) :
    (Turn.report now next histogram).counts labels
        (Plan.run now (histogram.plan settings labels next .cumulative) tracker).1 =
      if histogram.stats.finite.sum.isSome &&
          !(tracker.stored? (labels.suffixed Statistic.sum.name).series).isSome then []
      else [(histogram.stats.count : Rat) - count] := by
  have hnone : (Aggregates.of settings labels next histogram.stats).sum.isNone =
      !histogram.stats.finite.sum.isSome := by
    show histogram.stats.finite.sum.isNone = _
    cases histogram.stats.finite.sum <;> rfl
  rw [MetricPoints.counts_report hshow]
  simp only
  rw [h.increase?_count settings ht hc, h.isSome_increase?_sum settings ht, hnone]
  cases histogram.stats.finite.sum.isSome <;>
    cases (tracker.stored? (labels.suffixed Statistic.sum.name).series).isSome <;> rfl

/-- A sum is stored after a report exactly if one was before or the report has one. -/
theorem isSome_sum_report (now time : Nat) (histogram : Histogram Rat) (tracker : Tracker Rat) :
    ((Plan.run now (histogram.plan settings labels time .cumulative) tracker).2.stored?
        (labels.suffixed Statistic.sum.name).series).isSome =
      (histogram.stats.finite.sum.isSome ||
        (tracker.stored? (labels.suffixed Statistic.sum.name).series).isSome) := by
  rw [histogram.stored?_run_plan hshow labels time now tracker .sum]
  rw [show (Aggregates.of settings labels time histogram.stats).value? .sum =
    histogram.stats.finite.sum from rfl]
  cases histogram.stats.finite.sum <;> rfl

/-- After a report that is newer than what is stored, it is the last one. -/
theorem standing_report (now time : Nat) (histogram : Histogram Rat) (tracker : Tracker Rat)
    (hcount : ∀ held, tracker.stored? (labels.suffixed Statistic.count.name).series = some held →
      held.time < time)
    (hsum : ∀ held, tracker.stored? (labels.suffixed Statistic.sum.name).series = some held →
      held.time < time) :
    Standing labels time histogram.stats.count
      (Plan.run now (histogram.plan settings labels time .cumulative) tracker).2 := by
  have newer (stored : Option (Observation Rat)) (value : Rat)
      (h : ∀ held, stored = some held → held.time < time) :
      Tracker.storedAfter stored ⟨time, value⟩ = ⟨time, value⟩ := by
    cases stored with
    | none => rfl
    | some held => exact if_neg (by have := h held rfl; show ¬ time ≤ held.time; omega)
  refine ⟨?_, ?_⟩
  · rw [histogram.stored?_run_plan hshow labels time now tracker .count]
    exact congrArg some (newer _ _ hcount)
  · intro held
    rw [histogram.stored?_run_plan hshow labels time now tracker .sum]
    split
    · exact fun h => Nat.le_of_lt (hsum held h)
    · rename_i value _
      intro h
      rw [newer _ value hsum] at h
      cases h
      exact Nat.le_refl _

omit hshow in
theorem stored?_other (now : Nat) {plan : Plan Rat} (tracker : Tracker Rat) {series : Series}
    (h : ∀ sample ∈ plan.samples, sample.series ≠ series) :
    (Plan.run now plan tracker).2.stored? series = tracker.stored? series := by
  rw [Plan.tracker_run, Tracker.stored?, Tracker.get?_observeAll_of_not_sampled _ _ h,
    Tracker.stored?]

/-- What the counts of a run add up to from a report on. -/
theorem Standing.sum_emittedCounts {turns : List (Turn Rat)}
    (ha : ∀ turn ∈ turns, turn.Apart labels) {tracker : Tracker Rat} {time count : Nat}
    (h : Standing labels time count tracker)
    (ht : (time :: (reportsOf turns).map Prod.fst).Pairwise (· < ·))
    (hc : (count :: (reportsOf turns).map (·.2.count)).Pairwise (· ≤ ·)) :
    (emittedCounts settings labels turns tracker).sum +
        (if (tracker.stored? (labels.suffixed Statistic.sum.name).series).isSome then 0
          else passedAfter count ((reportsOf turns).map Prod.snd)) =
      ((((reportsOf turns).map (·.2.count)).getLastD count : Nat) : Rat) - count := by
  induction turns generalizing tracker time count with
  | nil => simp [emittedCounts, reportsOf, passedAfter]
  | cons turn rest ih =>
    obtain ⟨hapart, hrest⟩ := List.forall_mem_cons.mp ha
    rw [emittedCounts_cons, List.sum_append]
    cases turn with
    | other now plan =>
      have hcount := stored?_other now tracker fun sample hm => (hapart sample hm).1
      have hsum := stored?_other now tracker fun sample hm => (hapart sample hm).2
      have hstand : Standing labels time count (Plan.run now plan tracker).2 :=
        ⟨hcount.trans h.count, fun held hh => h.sum held (hsum ▸ hh)⟩
      have := ih hrest hstand ht hc
      rw [hsum] at this
      simpa [Turn.counts, Turn.timed] using this
    | report now next histogram =>
      rw [reportsOf_report, List.map_cons] at ht hc ⊢
      rw [List.map_cons, List.getLastD_cons]
      obtain ⟨htime, ht⟩ := List.pairwise_cons.mp ht
      obtain ⟨hle, hc⟩ := List.pairwise_cons.mp hc
      have hnew : time < next := htime next List.mem_cons_self
      have hmore : count ≤ histogram.stats.count := hle _ List.mem_cons_self
      have hstand := standing_report hshow labels now next histogram tracker
        (fun held hh => by rw [h.count] at hh; cases hh; exact hnew)
        (fun held hh => Nat.lt_of_le_of_lt (h.sum held hh) hnew)
      have hcounts := h.counts_report hshow labels now next histogram hnew hmore
      have hafter := isSome_sum_report hshow labels now next histogram tracker
      have := ih hrest hstand ht hc
      rw [hafter] at this
      simp only [Turn.timed]
      rw [hcounts]
      simp only [passedAfter]
      -- whether the report has a sum, and whether one is stored, decide what is passed over
      revert this
      cases histogram.stats.finite.sum.isSome <;>
        cases (tracker.stored? (labels.suffixed Statistic.sum.name).series).isSome <;>
        simp <;> intro this <;> linarith

/-- What the counts of a whole run add up to. -/
theorem sum_emittedCounts {turns : List (Turn Rat)} (ha : ∀ turn ∈ turns, turn.Apart labels)
    {tracker : Tracker Rat}
    (hcount : tracker.stored? (labels.suffixed Statistic.count.name).series = none)
    (hsum : tracker.stored? (labels.suffixed Statistic.sum.name).series = none)
    (ht : ((reportsOf turns).map Prod.fst).Pairwise (· < ·))
    (hc : ((reportsOf turns).map (·.2.count)).Pairwise (· ≤ ·)) :
    (emittedCounts settings labels turns tracker).sum + passed ((reportsOf turns).map Prod.snd) =
      ((((reportsOf turns).map (·.2.count)).getLastD 0 : Nat) : Rat) -
        (((reportsOf turns).map (·.2.count)).headD 0 : Nat) := by
  induction turns generalizing tracker with
  | nil => simp [emittedCounts, reportsOf, passed]
  | cons turn rest ih =>
    obtain ⟨hapart, hrest⟩ := List.forall_mem_cons.mp ha
    rw [emittedCounts_cons, List.sum_append]
    cases turn with
    | other now plan =>
      have := ih hrest
        ((stored?_other now tracker fun sample hm => (hapart sample hm).1).trans hcount)
        ((stored?_other now tracker fun sample hm => (hapart sample hm).2).trans hsum) ht hc
      simpa [Turn.counts, Turn.timed] using this
    | report now next histogram =>
      rw [reportsOf_report, List.map_cons] at ht hc ⊢
      rw [List.map_cons, List.getLastD_cons]
      have hstand := standing_report hshow labels now next histogram tracker
        (fun held hh => by rw [hcount] at hh; cases hh)
        (fun held hh => by rw [hsum] at hh; cases hh)
      have hfirst := counts_report_of_unseen hshow labels now next histogram hcount
      have hafter := isSome_sum_report hshow labels now next histogram tracker
      have := hstand.sum_emittedCounts hshow labels hrest ht hc
      rw [hafter, hsum] at this
      simp only [Turn.timed]
      rw [hfirst]
      simp only [passed]
      revert this
      cases histogram.stats.finite.sum.isSome <;> simp

end Run

/-- No increase of a statistic is lost while both count and sum have one, or there is no sum; and
over a run with increasing times and counts that never drop, the counts that are given add up to
what was counted, except for the report in which a sum turns up for the first time. -/
theorem statistics_conserve {settings : Settings} (hshow : settings.showsStatistics = true)
    (labels : Labels) :
    (∀ {V : Type} [Amount V] (now time : Nat) (histogram : Histogram V) (tracker : Tracker V),
      let a := Aggregates.of settings labels time histogram.stats
      let points :=
        (Plan.run now (histogram.plan settings labels time .cumulative) tracker).1.points
      pointsAt (labels.suffixed "count") points =
          (if a.sum.isNone || (a.increase? tracker .sum).isSome then
            (a.increase? tracker .count).toList.map (a.point .count)
          else []) ∧
        pointsAt (labels.suffixed "sum") points =
          (if (a.increase? tracker .count).isSome then
            (a.increase? tracker .sum).toList.map (a.point .sum)
          else [])) ∧
    (∀ (turns : List (Turn Rat)) (tracker : Tracker Rat),
      tracker.stored? (labels.suffixed "count").series = none →
      tracker.stored? (labels.suffixed "sum").series = none →
      (∀ turn ∈ turns, turn.Apart labels) →
      ((reportsOf turns).map Prod.fst).Pairwise (· < ·) →
      ((reportsOf turns).map (·.2.count)).Pairwise (· ≤ ·) →
      (emittedCounts settings labels turns tracker).sum +
          passed ((reportsOf turns).map Prod.snd) =
        ((((reportsOf turns).map (·.2.count)).getLastD 0 : Nat) : Rat) -
          (((reportsOf turns).map (·.2.count)).headD 0 : Nat)) := by
  refine ⟨?_, ?_⟩
  · intro V _ now time histogram tracker a points
    refine ⟨?_, ?_⟩
    · exact (histogram.pointsAt_run_plan hshow labels time now tracker .count).trans
        (a.pointsAt_count tracker)
    · exact (histogram.pointsAt_run_plan hshow labels time now tracker .sum).trans
        (a.pointsAt_sum tracker)
  · intro turns tracker hcount hsum ha ht hc
    exact sum_emittedCounts hshow labels ha hcount hsum ht hc

/-- Settings that leave buckets out. -/
def withoutBuckets : Settings := { Settings.default with bucketMode := .omitted }

/-- Three reports of a count, the last two with a sum. -/
def threeReports : List (Turn Rat) :=
  [.report 0 1 ⟨⟨5, none, none, none⟩, [], []⟩, .report 0 2 ⟨⟨8, some 16, none, none⟩, [], []⟩,
    .report 0 3 ⟨⟨12, some 20, none, none⟩, [], []⟩]

theorem statistics_conserve_threeReports :
    (emittedCounts withoutBuckets ⟨"latency", ∅, none, none⟩ threeReports (.empty 0)).sum + 3 =
      12 - 5 := by
  have hshow : withoutBuckets.showsStatistics = true := rfl
  have h := (statistics_conserve hshow ⟨"latency", ∅, none, none⟩).2
    threeReports (.empty 0) rfl rfl (by simp [threeReports, Turn.Apart]) (by decide) (by decide)
  have hpassed : passed ((reportsOf threeReports).map Prod.snd) = 3 := by decide +kernel
  rw [hpassed] at h
  exact h

/-- The count has increased by three, yet nothing is given: the sum is there for the first time. -/
theorem increase_of_count_passed_over :
    let labels : Labels := ⟨"latency", ∅, none, none⟩
    let first : Histogram Float := ⟨⟨5, none, none, none⟩, [], []⟩
    let second : Histogram Float := ⟨⟨8, some 16, none, none⟩, [], []⟩
    let tracker := (Plan.run 0 (first.plan withoutBuckets labels Amount.second .cumulative)
      (.empty 3600)).2
    (tracker.changeFor ⟨labels.suffixed "count", 2 * Amount.second, 8⟩).increase? = some 3 ∧
      (Plan.run 0 (second.plan withoutBuckets labels (2 * Amount.second) .cumulative)
        tracker).1.points = [] := by
  refine ⟨?_, ?_⟩
  · decide +kernel
  · decide +kernel

end MetricPoints
