import Mathlib.Algebra.Ring.Nat
import MetricPoints.Proofs.Alike

/-
  Replaying a batch of cumulative metrics is harmless. Once a sample was submitted, what is stored
  of its series is at least as new (`past_submit_self`), and stays so (`past_submit`), so that the
  sample is late from then on and changes nothing that is stored. A plan that only submits samples
  (`Plan.Submits`) therefore yields no point when all of them are past, and counts every one that
  is not an extremum (`Plan.run_of_past`). The plan of a cumulative batch is such a plan, and how
  many observations it counts can be read off the batch (`Batch.submits_plan`).

  Main statement: `Converter.replay_changes_nothing`.
-/

namespace MetricPoints

variable {V : Type}

namespace Tracker

variable {tracker other : Tracker V} {sample : Sample V}

/-- What is stored of the series of a sample is at least as new as the sample. -/
def Past (tracker : Tracker V) (sample : Sample V) : Prop :=
  ∃ held, tracker.stored? sample.series = some held ∧ sample.time ≤ held.time

theorem changeFor_of_past (h : tracker.Past sample) : tracker.changeFor sample = .late := by
  obtain ⟨held, hs, ht⟩ := h
  rw [changeFor_eq, hs]
  exact if_pos ht

theorem le_time_storedAfter (stored : Option (Observation V)) (o : Observation V) :
    o.time ≤ (storedAfter stored o).time := by
  unfold storedAfter
  split
  · exact Nat.le_refl _
  · split
    · assumption
    · exact Nat.le_refl _

theorem time_le_storedAfter (held o : Observation V) :
    held.time ≤ (storedAfter (some held) o).time := by
  simp only [storedAfter]
  split
  · exact Nat.le_refl _
  · omega

theorem past_submit_self (tracker : Tracker V) (now : Nat) (sample : Sample V) :
    (tracker.submit now sample).Past sample := by
  refine ⟨storedAfter (tracker.stored? sample.series) sample.observation, ?_, ?_⟩
  · rw [stored?_submit, if_pos rfl]
  · exact le_time_storedAfter _ sample.observation

/-- What is stored of a series is at least as new as a time. -/
def Reached (tracker : Tracker V) (series : Series) (time : Nat) : Prop :=
  ∃ held, tracker.stored? series = some held ∧ time ≤ held.time

namespace Reached

variable {series : Series} {time : Nat}

/-- Time stored for a series never goes back. -/
theorem submit (h : tracker.Reached series time) (now : Nat) (next : Sample V) :
    (tracker.submit now next).Reached series time := by
  obtain ⟨held, hs, ht⟩ := h
  by_cases he : series = next.series
  · refine ⟨storedAfter (some held) next.observation, ?_, ?_⟩
    · rw [stored?_submit, if_pos he, hs]
    · exact Nat.le_trans ht (time_le_storedAfter held next.observation)
  · refine ⟨held, ?_, ht⟩
    rw [stored?_submit, if_neg he, hs]

theorem observeAll (h : tracker.Reached series time) (now : Nat) (samples : List (Sample V)) :
    (tracker.observeAll now samples).2.Reached series time := by
  induction samples generalizing tracker with
  | nil => exact h
  | cons next rest ih => exact ih (h.submit now next)

end Reached

theorem past_submit (h : tracker.Past sample) (now : Nat) (next : Sample V) :
    (tracker.submit now next).Past sample :=
  Reached.submit h now next

theorem past_observeAll (h : tracker.Past sample) (now : Nat) (samples : List (Sample V)) :
    (tracker.observeAll now samples).2.Past sample :=
  Reached.observeAll h now samples

/-- Whatever was submitted is past afterwards. -/
theorem past_of_mem_observeAll (tracker : Tracker V) (now : Nat) {samples : List (Sample V)}
    (h : sample ∈ samples) : (tracker.observeAll now samples).2.Past sample := by
  induction samples generalizing tracker with
  | nil => exact absurd h List.not_mem_nil
  | cons next rest ih =>
    rcases List.mem_cons.mp h with rfl | h
    · exact past_observeAll (past_submit_self tracker now sample) now rest
    · exact ih (tracker.submit now next) h

theorem Past.of_alike (h : tracker.Past sample) (ha : other.Alike tracker) :
    other.Past sample := by
  obtain ⟨held, hs, ht⟩ := h
  exact ⟨held, (ha _).trans hs, ht⟩

theorem alike_submit_of_past (h : tracker.Past sample) (now : Nat) :
    (tracker.submit now sample).Alike tracker := by
  obtain ⟨held, hs, ht⟩ := h
  intro series
  rw [stored?_submit]
  by_cases he : series = sample.series
  · rw [if_pos he, he, hs]
    exact congrArg some (if_pos ht)
  · rw [if_neg he]

/-- Samples that are past are all late and change nothing that is stored. -/
theorem observeAll_of_past (now : Nat) {samples : List (Sample V)}
    (h : ∀ sample ∈ samples, tracker.Past sample) :
    (tracker.observeAll now samples).1 = samples.map (fun _ => .late) ∧
      (tracker.observeAll now samples).2.Alike tracker := by
  induction samples generalizing tracker with
  | nil => exact ⟨rfl, Alike.refl tracker⟩
  | cons first rest ih =>
    obtain ⟨hf, hrest⟩ := List.forall_mem_cons.mp h
    have ha := alike_submit_of_past hf now
    have hr : ∀ sample ∈ rest, (tracker.submit now first).Past sample :=
      fun sample hs => past_submit (hrest sample hs) now first
    obtain ⟨hc, hl⟩ := ih hr
    rw [fst_observeAll_cons, hc, changeFor_of_past hf]
    exact ⟨rfl, hl.trans ha⟩

end Tracker

namespace Step

/-- Says whether a step gives a point whatever was seen before. -/
def emits : Step V → Bool
  | emit _ => true
  | _ => false

/-- How many samples of a step count as late when they are: all but the extrema. -/
def counted : Step V → Nat
  | emit _ | note _ => 0
  | track _ _ => 1
  | aggregate a => 1 + a.sum.toList.length

variable [Amount V]

/-- A step all of whose samples are late gives no point and counts them. -/
theorem outcome_of_late {step : Step V} (h : step.emits = false) :
    (step.outcome (step.samples.map fun _ => .late)).points = [] ∧
      (step.outcome (step.samples.map fun _ => .late)).late = step.counted := by
  cases step with
  | emit point => exact absurd h Bool.noConfusion
  | note notice => exact ⟨rfl, rfl⟩
  | track role sample => cases role <;> exact ⟨rfl, rfl⟩
  | aggregate a =>
    obtain ⟨labels, time, count, sum, min, max⟩ := a
    cases sum <;> cases min <;> cases max <;> exact ⟨rfl, rfl⟩

end Step

namespace Plan

/-- A plan that only submits samples and notes things; `n` of the samples count as late when they
are. -/
structure Submits (plan : Plan V) (n : Nat) : Prop where
  silent : ∀ step ∈ plan, step.emits = false
  counted : (plan.map Step.counted).sum = n

namespace Submits

theorem nil : Submits ([] : Plan V) 0 := ⟨fun _ h => absurd h List.not_mem_nil, rfl⟩

theorem single {step : Step V} (h : step.emits = false) : Submits [step] step.counted := by
  refine ⟨fun other ho => ?_, rfl⟩
  rw [List.mem_singleton.mp ho]
  exact h

theorem append {p q : Plan V} {m n : Nat} (hp : p.Submits m) (hq : q.Submits n) :
    Submits (p ++ q) (m + n) := by
  refine ⟨?_, ?_⟩
  · intro step hs
    rcases List.mem_append.mp hs with hs | hs
    · exact hp.silent step hs
    · exact hq.silent step hs
  · rw [List.map_append, List.sum_append, hp.counted, hq.counted]

theorem flatMap {α : Type} {xs : List α} {plan : α → Plan V} {n : α → Nat}
    (h : ∀ x ∈ xs, (plan x).Submits (n x)) : Submits (xs.flatMap plan) (xs.map n).sum := by
  induction xs with
  | nil => exact nil
  | cons x rest ih =>
    obtain ⟨hx, hrest⟩ := List.forall_mem_cons.mp h
    rw [List.flatMap_cons, List.map_cons, List.sum_cons]
    exact hx.append (ih hrest)

/-- A plan with one step for each thing. -/
theorem map {α : Type} {xs : List α} {step : α → Step V} {n : Nat}
    (h : ∀ x ∈ xs, (step x).emits = false ∧ (step x).counted = n) :
    Submits (xs.map step) (xs.length * n) := by
  refine ⟨?_, ?_⟩
  · intro s hs
    obtain ⟨x, hx, rfl⟩ := List.mem_map.mp hs
    exact (h x hx).1
  · have hm : (xs.map step).map Step.counted = xs.map fun _ => n := by
      rw [List.map_map]
      exact List.map_congr_left fun x hx => (h x hx).2
    rw [hm, List.map_const', List.sum_replicate_nat]

end Submits

variable [Amount V]

/-- A plan that only submits samples, all of them past, gives no point, counts its samples as late,
and changes nothing that is stored. -/
theorem run_of_past (now : Nat) {plan : Plan V} {n : Nat} (h : plan.Submits n)
    {tracker : Tracker V} (hp : ∀ sample ∈ plan.samples, tracker.Past sample) :
    (run now plan tracker).1.points = [] ∧ (run now plan tracker).1.late = n ∧
      (run now plan tracker).2.Alike tracker := by
  obtain ⟨hs, rfl⟩ := h
  induction plan generalizing tracker with
  | nil => exact ⟨rfl, rfl, Tracker.Alike.refl tracker⟩
  | cons step rest ih =>
    rw [samples_cons] at hp
    obtain ⟨hc, ha⟩ := Tracker.observeAll_of_past now fun sample hm =>
      hp sample (List.mem_append_left _ hm)
    have hrun : (step.run now tracker).1 = step.outcome (step.samples.map fun _ => .late) := by
      rw [Step.run, hc]
    have hrun' : (step.run now tracker).2.Alike tracker := ha
    obtain ⟨hpoints, hlate⟩ := Step.outcome_of_late (hs step List.mem_cons_self)
    have hp' : ∀ sample ∈ samples rest, (step.run now tracker).2.Past sample :=
      fun sample hm => (hp sample (List.mem_append_right _ hm)).of_alike hrun'
    obtain ⟨hpoints', hlate', halike⟩ :=
      ih hp' fun other ho => hs other (List.mem_cons_of_mem _ ho)
    rw [run_cons, hrun]
    refine ⟨?_, ?_, halike.trans hrun'⟩
    · rw [Outcome.points_append, hpoints, hpoints', List.nil_append]
    · rw [Outcome.late_append, hlate, hlate', List.map_cons, List.sum_cons]

end Plan

/-- Says whether a metric holds totals only: a monotonic sum, a histogram or a summary that counts
from the start. -/
def MetricData.Cumulative : MetricData V → Prop
  | .sum code monotonic _ => Temporality.ofCode? code = some .cumulative ∧ monotonic = true
  | .histogram code _ => Temporality.ofCode? code = some .cumulative
  | .summary _ => True
  | _ => False

/-- Says whether a batch holds totals only. -/
def Batch.Cumulative (batch : Batch V) : Prop :=
  ∀ resource ∈ batch, ∀ scope ∈ resource.scopes, ∀ metric ∈ scope.metrics, metric.data.Cumulative

section Observations

variable [Amount V]

/-- The number is an observation unless it is missing or not finite. -/
def NumberPoint.observations (value : Option (Number V)) : Nat :=
  if value.any fun number => Amount.finite number.amount then 1 else 0

/-- The count of a data point is an observation, and its sum if it is there and finite. -/
def Stats.observations (settings : Settings) (stats : Stats V) : Nat :=
  if settings.showsStatistics then 1 + stats.finite.sum.toList.length else 0

/-- Every bucket is an observation where buckets are counters, unless their number is wrong. -/
def Histogram.bucketObservations (settings : Settings) (histogram : Histogram V) : Nat :=
  if settings.bucketMode = .counters ∧ histogram.counts.length = histogram.bounds.length + 1 then
    histogram.counts.length
  else 0

/-- The observations of count, sum and buckets. -/
def Histogram.observations (settings : Settings) (histogram : Histogram V) : Nat :=
  histogram.stats.observations settings + histogram.bucketObservations settings

/-- The count is an observation, and the sum if it is finite. -/
def Summary.observations (summary : Summary V) : Nat :=
  1 + if Amount.finite summary.sum then 1 else 0

/-- The observations in the data points for which a value was recorded. -/
def pointObservations {α : Type} (observations : α → Nat) (points : List (DataPoint α)) : Nat :=
  ((points.filter DataPoint.recorded).map fun point => observations point.value).sum

/-- The observations of counts, sums, buckets and running totals in a metric. -/
def MetricData.observations (settings : Settings) : MetricData V → Nat
  | .sum _ _ points => pointObservations NumberPoint.observations points
  | .histogram _ points => pointObservations (Histogram.observations settings) points
  | .summary points => pointObservations Summary.observations points
  | _ => 0

/-- The observations of counts, sums, buckets and running totals in a batch. -/
def Batch.observations (settings : Settings) (batch : Batch V) : Nat :=
  (batch.map fun resource => (resource.scopes.map fun scope =>
    (scope.metrics.map fun metric => metric.data.observations settings).sum).sum).sum

end Observations

section Plans

variable [Amount V] {settings : Settings}

omit [Amount V] in
theorem pointPlans_submits {α : Type} {plan : DataPoint α → Plan V} {observations : α → Nat}
    (h : ∀ point, (plan point).Submits (observations point.value))
    (points : List (DataPoint α)) :
    (pointPlans plan points).Submits (pointObservations observations points) :=
  Plan.Submits.flatMap fun point _ => h point

theorem NumberPoint.submits_totalPlan (labels : Labels)
    (point : DataPoint (Option (Number V))) :
    (totalPlan labels point).Submits (observations point.value) := by
  unfold totalPlan observations
  cases point.value with
  | none => exact .nil
  | some number =>
    simp only [Option.toList_some, List.map_cons, List.map_nil, Option.any_some, Number.step]
    split
    · exact .single rfl
    · exact .single rfl

theorem Stats.submits_remarks (stats : Stats V) (labels : Labels) :
    (stats.remarks labels).Submits 0 := by
  have hnote : ∀ step ∈ stats.remarks labels, step.emits = false ∧ step.counted = 0 := by
    intro step hs
    obtain ⟨remark, rfl⟩ := remark_of_mem_remarks hs
    exact ⟨rfl, rfl⟩
  have hall : Plan.Submits ((stats.remarks labels).map id) ((stats.remarks labels).length * 0) :=
    Plan.Submits.map hnote
  rwa [List.map_id, Nat.mul_zero] at hall

theorem Stats.submits_plan (labels : Labels) (time : Nat) (stats : Stats V) :
    (stats.plan settings labels time .cumulative).Submits (stats.observations settings) := by
  unfold Stats.plan observations
  split
  · have hone : Plan.Submits [.aggregate (Aggregates.of settings labels time stats)]
        (1 + stats.finite.sum.toList.length) := .single rfl
    have := (stats.submits_remarks labels).append hone
    rwa [Nat.zero_add] at this
  · exact .nil

theorem Histogram.submits_bucketPlan (labels : Labels) (time : Nat) (histogram : Histogram V)
    (hmode : settings.bucketMode = .counters) :
    (histogram.bucketPlan labels time .cumulative).Submits
      (histogram.bucketObservations settings) := by
  unfold bucketPlan bucketObservations
  simp only [hmode, true_and]
  split
  · rename_i hnone
    rw [hnone, List.length_nil, ite_self]
    exact .nil
  · split
    · rename_i hlength
      have hzip :
          ((bucketEdges histogram.bounds).zip histogram.counts).length =
            histogram.counts.length := by
        rw [List.length_zip, length_bucketEdges, hlength, Nat.min_self]
      have hall : Plan.Submits
          (((bucketEdges histogram.bounds).zip histogram.counts).map
            (bucketStep (V := V) labels time .cumulative))
          (((bucketEdges histogram.bounds).zip histogram.counts).length * 1) :=
        Plan.Submits.map fun _ _ => ⟨rfl, rfl⟩
      rwa [hzip, Nat.mul_one] at hall
    · exact .single rfl

theorem Histogram.submits_plan (hmode : settings.bucketMode ≠ .distributions) (labels : Labels)
    (time : Nat) (histogram : Histogram V) :
    (histogram.plan settings labels time .cumulative).Submits
      (histogram.observations settings) := by
  apply Plan.Submits.append (histogram.stats.submits_plan labels time)
  cases hm : settings.bucketMode with
  | omitted =>
    rw [bucketObservations, if_neg (by simp [hm])]
    exact .nil
  | counters => exact histogram.submits_bucketPlan labels time hm
  | distributions => exact absurd hm hmode

theorem Summary.submits_plan (hq : settings.quantiles = false) (labels : Labels) (time : Nat)
    (summary : Summary V) :
    (summary.plan settings labels time).Submits summary.observations := by
  unfold Summary.plan observations sumStep
  rw [hq]
  apply Plan.Submits.append (p := [_]) (.single rfl)
  split
  · exact .single rfl
  · exact .single rfl

variable (htotals : settings.totalMode = .increases)
  (hmode : settings.bucketMode ≠ .distributions) (hq : settings.quantiles = false)

include htotals hmode hq

/-- The plan of totals only submits samples. -/
theorem MetricData.submits_plan (labels : Labels) {data : MetricData V} (h : data.Cumulative) :
    (data.plan settings labels).Submits (data.observations settings) := by
  cases data with
  | sum code monotonic points =>
    obtain ⟨hcode, rfl⟩ := h
    unfold MetricData.plan
    simp only [hcode, htotals, decide_true, Bool.and_self, if_true]
    exact pointPlans_submits (NumberPoint.submits_totalPlan labels) points
  | histogram code points =>
    have hcode : Temporality.ofCode? code = some .cumulative := h
    unfold MetricData.plan
    simp only [hcode]
    exact pointPlans_submits (fun point => Histogram.submits_plan hmode _ _ point.value) points
  | summary points =>
    exact pointPlans_submits (fun point => Summary.submits_plan hq _ _ point.value) points
  | unknown | gauge | exponential => exact absurd h id

theorem Batch.submits_plan {batch : Batch V} (h : batch.Cumulative) :
    (Batch.plan settings batch).Submits (batch.observations settings) := by
  apply Plan.Submits.flatMap
  intro resource hr
  have hproblems : (sourceProblems (V := V)
      (Source.resolve settings.fallback resource.attributes)).Submits 0 := by
    unfold sourceProblems
    split
    · exact .nil
    · exact .single rfl
  have hscopes : Plan.Submits
      (resource.scopes.flatMap
        (ScopeMetrics.plan settings (Context.ofResource settings resource.attributes)))
      (resource.scopes.map fun scope =>
        (scope.metrics.map fun metric => metric.data.observations settings).sum).sum := by
    apply Plan.Submits.flatMap
    intro scope hs
    apply Plan.Submits.flatMap
    intro metric hm
    exact MetricData.submits_plan htotals hmode hq _ (h resource hr scope hs metric hm)
  have := hproblems.append hscopes
  rwa [Nat.zero_add] at this

end Plans

namespace Converter

variable [Amount V]

theorem past_convertEach {converter : Converter V} {sample : Sample V}
    (h : converter.tracker.Past sample) (batches : List (Nat × Batch V)) :
    (converter.convertEach batches).2.tracker.Past sample := by
  induction batches generalizing converter with
  | nil => exact h
  | cons timed rest ih =>
    apply ih
    rw [tracker_convert]
    exact Tracker.past_observeAll h _ _

/-- After a batch, the samples of it are past for good. -/
theorem past_of_mem_convertEach (converter : Converter V) (earlier between : List (Nat × Batch V))
    (now : Nat) {batch : Batch V} {sample : Sample V}
    (h : sample ∈ (Batch.plan converter.settings batch).samples) :
    (converter.convertEach (earlier ++ (now, batch) :: between)).2.tracker.Past sample := by
  have hpast : ((converter.convertEach earlier).2.convert now batch).2.tracker.Past sample := by
    rw [tracker_convert, settings_convertEach]
    exact Tracker.past_of_mem_observeAll _ now h
  rw [snd_convertEach_append]
  exact past_convertEach hpast between

/-- Replaying a batch of totals at any later time, with nothing forgotten in between, gives no
point, counts each of its observations as late, and changes neither what is stored nor anything
that later batches give. The fallback answers the same throughout. -/
theorem replay_changes_nothing {converter : Converter V}
    (htotals : converter.settings.totalMode = .increases)
    (hmode : converter.settings.bucketMode ≠ .distributions)
    (hq : converter.settings.quantiles = false) {batch : Batch V} (hb : batch.Cumulative)
    (earlier between later : List (Nat × Batch V)) (now again : Nat) :
    let reached := (converter.convertEach (earlier ++ (now, batch) :: between)).2
    let replayed := reached.convert again batch
    replayed.1.points = [] ∧
      replayed.1.report.late = batch.observations converter.settings ∧
      (∀ series, replayed.2.tracker.stored? series = reached.tracker.stored? series) ∧
      (replayed.2.convertEach later).1 = (reached.convertEach later).1 := by
  intro reached replayed
  have hs : reached.settings = converter.settings := settings_convertEach _ _
  have hplan : Plan.Submits (Batch.plan reached.settings batch)
      (batch.observations converter.settings) := by
    rw [hs]
    exact Batch.submits_plan htotals hmode hq hb
  have hpast : ∀ sample ∈ (Batch.plan reached.settings batch).samples,
      reached.tracker.Past sample := by
    rw [hs]
    exact fun sample hm => past_of_mem_convertEach converter earlier between now hm
  obtain ⟨hpoints, hlate, ha⟩ := Plan.run_of_past again hplan hpast
  have hfirst : replayed.1 = _ := reached.fst_convert again batch
  have htracker : replayed.2.tracker = _ := reached.tracker_convert_eq_run again batch
  rw [← htracker] at ha
  have halike : replayed.2.Alike reached :=
    ⟨reached.settings_convert again batch, reached.observer_convert again batch, ha⟩
  rw [hfirst]
  exact ⟨hpoints, hlate, ha, halike.convertEach later⟩

/-- A batch with a running total, a histogram of two buckets and a summary. -/
def threeTotals : Batch Rat :=
  [⟨[], [⟨none,
    [⟨"requests", .sum 2 true [⟨1, [], 0, some (.integer 5)⟩]⟩,
     ⟨"latency", .histogram 2 [⟨1, [], 0, ⟨⟨3, some 4, none, none⟩, [0.5], [1, 2]⟩⟩]⟩,
     ⟨"sizes", .summary [⟨1, [], 0, ⟨2, 7, []⟩⟩]⟩]⟩]⟩]

theorem replay_of_threeTotals :
    let converter : Converter Rat :=
      ⟨{ Settings.default with bucketMode := .counters, aggregations := true }, .empty 0, .logger,
        false, .zero⟩
    let reached := (converter.convertEach [(0, threeTotals)]).2
    threeTotals.Cumulative ∧ (reached.convert 1 threeTotals).1.points = [] ∧
      (reached.convert 1 threeTotals).1.report.late = 7 := by
  intro converter reached
  have hb : threeTotals.Cumulative := by simp [Batch.Cumulative, threeTotals,
    MetricData.Cumulative, Temporality.ofCode?]
  have htotals : converter.settings.totalMode = .increases := rfl
  have hmode : converter.settings.bucketMode ≠ .distributions := by decide
  have hcount : threeTotals.observations converter.settings = 7 := by decide
  have hreached : (converter.convertEach ([] ++ [(0, threeTotals)])).2 = reached := rfl
  obtain ⟨hpoints, hlate, -, -⟩ := replay_changes_nothing htotals hmode rfl hb [] [] [] 0 1
  rw [hreached] at hpoints hlate
  rw [hcount] at hlate
  exact ⟨hb, hpoints, hlate⟩

end Converter

end MetricPoints
