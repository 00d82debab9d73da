import MetricPoints.Proofs.Planned
import MetricPoints.Proofs.Replay

/-
  Increases advance. Whatever is counted or rated through the tracker is marked with the series of
  its point and the time of its data point. A run from one tracker to another `Advances` by marks
  when none of them was reached before, all are reached after, and those of one series have
  increasing times. A step advances by the marks of its points (`Step.advances`): a sample that is
  not newer than what is stored gives no increase. Runs one after the other advance by all their
  marks (`Advances.append`), so that plans, data points, batches and sequences of batches do.

  The labels of a point are those of the sample that it is an increase of
  (`Step.sample_of_increase`): the series that can be read off the point is the one whose entry was
  consulted.

  Main statement: `Converter.increases_advance`.
-/

namespace MetricPoints

variable {V : Type}

/-- Says whether a reading adds up: counts and rates do, gauges and distributions do not. -/
def Reading.adds : Reading V → Bool
  | count _ | rate _ => true
  | gauge _ | distribution _ => false

/-- A series with a time. -/
structure Mark where
  series : Series
  time : Nat

/-- The marks of points that come from a data point with a time. -/
def marks (time : Nat) (points : List (Point V)) : List Mark :=
  (points.filter (·.reading.adds)).map fun point => ⟨point.labels.series, time⟩

theorem marks_append (time : Nat) (xs ys : List (Point V)) :
    marks time (xs ++ ys) = marks time xs ++ marks time ys := by
  simp only [marks, List.filter_append, List.map_append]

/-- A tracker after another one, with marks reached in between and not before. -/
structure Tracker.Advances (before after : Tracker V) (marks : List Mark) : Prop where
  fresh : ∀ mark ∈ marks, ¬ before.Reached mark.series mark.time
  reached : ∀ mark ∈ marks, after.Reached mark.series mark.time
  increasing : marks.Pairwise fun a b => a.series = b.series → a.time < b.time
  kept : ∀ series time, before.Reached series time → after.Reached series time

namespace Tracker.Advances

variable {a b c : Tracker V} {xs ys : List Mark}

/-- No marks at all, and nothing lost. -/
theorem nil (h : ∀ series time, a.Reached series time → b.Reached series time) :
    a.Advances b [] where
  fresh _ hm := absurd hm List.not_mem_nil
  reached _ hm := absurd hm List.not_mem_nil
  increasing := .nil
  kept := h

theorem append (h : a.Advances b xs) (h' : b.Advances c ys) : a.Advances c (xs ++ ys) where
  fresh mark hm := by
    rcases List.mem_append.mp hm with hm | hm
    · exact h.fresh mark hm
    · exact fun hr => h'.fresh mark hm (h.kept _ _ hr)
  reached mark hm := by
    rcases List.mem_append.mp hm with hm | hm
    · exact h'.kept _ _ (h.reached mark hm)
    · exact h'.reached mark hm
  increasing := by
    refine List.pairwise_append.mpr ⟨h.increasing, h'.increasing, fun x hx y hy he => ?_⟩
    -- a mark that is not later than one before it was reached with it
    by_contra hle
    obtain ⟨held, hs, ht⟩ := h.reached x hx
    exact h'.fresh y hy ⟨held, he ▸ hs, Nat.le_trans (Nat.le_of_not_lt hle) ht⟩
  kept series time hr := h'.kept _ _ (h.kept _ _ hr)

end Tracker.Advances

/-! ## Steps -/

/-- What a step adds up goes through the tracker, with samples at this time. -/
def Step.AddsAt (time : Nat) : Step V → Prop
  | emit point => point.reading.adds = false
  | note _ => True
  | track _ sample => sample.time = time
  | aggregate a => a.time = time

section Steps

variable [Amount V] {tracker : Tracker V} {step : Step V} {point : Point V} {time : Nat}

/-- A late sample gives no point, any other one a point with its labels and time at most. -/
theorem Role.sample_of_point {role : Role} {sample : Sample V} {change : Change V}
    (h : point ∈ (role.outcome sample change).points) :
    change ≠ .late ∧ ∃ reading, point = .at sample.time sample.labels reading := by
  obtain ⟨reading, hr, rfl⟩ := List.mem_map.mp h
  refine ⟨?_, reading, rfl⟩
  rintro rfl
  cases role <;> exact absurd hr List.not_mem_nil

/-- An increase of a statistic is newer than what is stored of it. -/
theorem Aggregates.not_past_of_increase {a : Aggregates V} {statistic : Statistic} {increase : V}
    (h : a.increase? tracker statistic = some increase) :
    ∃ value, a.value? statistic = some value ∧ ¬ tracker.Past (a.sampleOf statistic value) := by
  have hsome := a.isSome_increase? tracker statistic
  rw [h, Option.isSome_some, eq_comm, Bool.and_eq_true, Option.isSome_iff_exists,
    Option.any_eq_true] at hsome
  obtain ⟨⟨value, hv⟩, held, hs, ht⟩ := hsome
  refine ⟨value, hv, fun ⟨other, ho, hle⟩ => ?_⟩
  cases hs.symm.trans ho
  exact absurd hle (Nat.not_le_of_lt (of_decide_eq_true ht))

theorem Aggregates.sample_of_increase {a : Aggregates V}
    (h : point ∈ (Step.outcomeFrom tracker (.aggregate a)).points)
    (hadds : point.reading.adds = true) :
    ∃ sample ∈ a.samples, ¬ tracker.Past sample ∧
      ∃ reading, point = .at sample.time sample.labels reading := by
  have hfound {statistic : Statistic}
      (hp : point ∈ (a.increase? tracker statistic).toList.map (a.point statistic)) :
      ∃ sample ∈ a.samples, ¬ tracker.Past sample ∧
        ∃ reading, point = .at sample.time sample.labels reading := by
    obtain ⟨increase, hi, rfl⟩ := List.mem_map.mp hp
    obtain ⟨value, hv, hpast⟩ := not_past_of_increase (Option.mem_toList.mp hi)
    exact ⟨_, mem_samples.mpr ⟨statistic, value, hv, rfl⟩, hpast, _, rfl⟩
  have hextremum {statistic : Statistic} {value? : Option V}
      (hs : ∀ value : V, (statistic.reading value).adds = false)
      (hp : point ∈ value?.toList.map (a.point statistic)) : False := by
    obtain ⟨value, -, rfl⟩ := List.mem_map.mp hp
    exact Bool.false_ne_true ((hs value).symm.trans hadds)
  rw [points_outcomeFrom] at h
  split at h
  · simp only [List.mem_append] at h
    obtain ((hp | hp) | hp) | hp := h
    · exact hfound hp
    · exact hfound hp
    · exact (hextremum (fun _ => rfl) hp).elim
    · exact (hextremum (fun _ => rfl) hp).elim
  · exact absurd h List.not_mem_nil

/-- A point that adds up has the labels and the time of a sample that is newer than what is
stored. -/
theorem Step.sample_of_increase (hstep : step.AddsAt time)
    (h : point ∈ (step.outcomeFrom tracker).points) (hadds : point.reading.adds = true) :
    ∃ sample ∈ step.samples, sample.time = time ∧ ¬ tracker.Past sample ∧
      ∃ reading, point = .at time sample.labels reading := by
  cases step with
  | emit other =>
    rw [List.mem_singleton.mp h, hstep] at hadds
    exact nomatch hadds
  | note notice => exact absurd h List.not_mem_nil
  | track role sample =>
    obtain ⟨hlate, reading, rfl⟩ := Role.sample_of_point h
    cases hstep
    exact ⟨sample, List.mem_singleton_self _, rfl,
      fun hpast => hlate (Tracker.changeFor_of_past hpast), reading, rfl⟩
  | aggregate a =>
    obtain ⟨sample, hs, hpast, reading, rfl⟩ := Aggregates.sample_of_increase h hadds
    have htime : sample.time = time := by
      obtain ⟨statistic, value, -, rfl⟩ := Aggregates.mem_samples.mp hs
      exact hstep
    exact ⟨sample, hs, htime, hpast, reading, by rw [htime]⟩

omit [Amount V] in
theorem Step.nodup_series_labels (step : Step V) : (step.labels.map Labels.series).Nodup := by
  cases step with
  | note notice => exact .nil
  | emit | track => exact List.pairwise_singleton _ _
  | aggregate a =>
    have hd : [Statistic.count, .sum, .min, .max].Nodup := by decide
    exact List.pairwise_map.mpr (List.pairwise_map.mpr (hd.imp fun h => a.series_labelsOf_ne h))

/-- The marks of a step are of distinct series. -/
theorem Step.nodup_marks (step : Step V) (time : Nat) (tracker : Tracker V) :
    ((marks time (step.outcomeFrom tracker).points).map Mark.series).Nodup := by
  have hsub : ((marks time (step.outcomeFrom tracker).points).map Mark.series).Sublist
      (step.labels.map Labels.series) := by
    have hlabels := step.sublist_labels (step.samples.map tracker.changeFor)
    refine List.Sublist.trans ?_ (hlabels.map Labels.series)
    rw [marks, List.map_map, List.map_map]
    exact List.filter_sublist.map _
  exact hsub.nodup step.nodup_series_labels

/-- A step advances by the marks of its points. -/
theorem Step.advances (hstep : step.AddsAt time) (now : Nat) (tracker : Tracker V) :
    tracker.Advances (step.run now tracker).2 (marks time (step.run now tracker).1.points) := by
  rw [step.fst_run]
  have hsample : ∀ mark ∈ marks time (step.outcomeFrom tracker).points,
      ∃ sample ∈ step.samples, ¬ tracker.Past sample ∧ mark = ⟨sample.series, sample.time⟩ := by
    intro mark hm
    obtain ⟨point, hp, rfl⟩ := List.mem_map.mp hm
    obtain ⟨hp, hadds⟩ := List.mem_filter.mp hp
    obtain ⟨sample, hs, rfl, hpast, reading, rfl⟩ := sample_of_increase hstep hp hadds
    exact ⟨sample, hs, hpast, rfl⟩
  refine ⟨?_, ?_, ?_, fun series time h => h.observeAll now step.samples⟩
  · intro mark hm
    obtain ⟨sample, -, hpast, rfl⟩ := hsample mark hm
    exact hpast
  · intro mark hm
    obtain ⟨sample, hs, -, rfl⟩ := hsample mark hm
    exact Tracker.past_of_mem_observeAll tracker now hs
  · exact (List.pairwise_map.mp (step.nodup_marks time tracker)).imp fun hne he => absurd he hne

namespace Plan

variable {plan : Plan V}

/-- Every point of a run is one of a step. -/
theorem exists_step_of_mem_points {now : Nat} (h : point ∈ (run now plan tracker).1.points) :
    ∃ step ∈ plan, ∃ before, point ∈ (Step.outcomeFrom before step).points := by
  induction plan generalizing tracker with
  | nil => exact absurd h List.not_mem_nil
  | cons step rest ih =>
    rw [run_cons, Outcome.points_append, List.mem_append, step.fst_run] at h
    rcases h with h | h
    · exact ⟨step, List.mem_cons_self, tracker, h⟩
    · obtain ⟨other, ho, before, hb⟩ := ih h
      exact ⟨other, List.mem_cons_of_mem _ ho, before, hb⟩

theorem advances (hplan : ∀ step ∈ plan, step.AddsAt time) (now : Nat) (tracker : Tracker V) :
    tracker.Advances (run now plan tracker).2 (marks time (run now plan tracker).1.points) := by
  induction plan generalizing tracker with
  | nil => exact .nil fun _ _ h => h
  | cons step rest ih =>
    obtain ⟨hstep, hrest⟩ := List.forall_mem_cons.mp hplan
    rw [run_cons, Outcome.points_append, marks_append]
    exact (Step.advances hstep now tracker).append (ih hrest _)

/-- Points that add up are reported for the second of their data point. -/
theorem second_of_increase (hplan : ∀ step ∈ plan, step.AddsAt time) {now : Nat}
    (h : point ∈ (run now plan tracker).1.points) (hadds : point.reading.adds = true) :
    point.second = time / Amount.second := by
  obtain ⟨step, hs, before, hp⟩ := exists_step_of_mem_points h
  obtain ⟨sample, -, -, -, reading, rfl⟩ := Step.sample_of_increase (hplan step hs) hp hadds
  rfl

end Plan

end Steps

/-! ## Data points -/

section Sites

variable [Amount V] {settings : Settings}

/-- What is counted or rated for a data point that is tracked goes through the tracker. -/
theorem Planned.addsAt {base : Labels} {time : Nat} {measured : Measured V} {step : Step V}
    (h : Planned settings base time measured step) (ht : measured.tracked settings = true) :
    step.AddsAt time := by
  cases h with
  | notice => trivial
  | gauge | standing | distribution | quantile | total | aggregate | summaryCount | summarySum =>
    rfl
  | count hcode => simp [Measured.tracked, hcode] at ht
  | @bucket _ temporality _ _ hcode hmode =>
    cases temporality with
    | delta => simp [Measured.tracked, hcode] at ht
    | cumulative => rfl
  | statistic hstats =>
    rw [Measured.tracked_of_stats? hstats] at ht
    simp at ht

/-- Says whether a data point goes through the tracker: its plan submits samples. -/
def Site.submits (settings : Settings) (site : Site V) : Bool :=
  !(site.alone.plan settings).samples.isEmpty

theorem Site.addsAt {site : Site V} (h : site.submits settings = true) :
    ∀ step ∈ (site.alone.plan settings).working, step.AddsAt site.point.time := by
  intro step hs
  refine (Site.planned_of_mem hs).addsAt ?_
  by_contra ht
  rw [submits, Site.samples_eq_nil (Bool.not_eq_true _ ▸ ht)] at h
  exact nomatch h

end Sites

/-- A point with the data point that it is given for. -/
structure Emission (V : Type) where
  site : Site V
  point : Point V

namespace Emission

/-- The series of the point with the time of the data point. -/
def mark (emission : Emission V) : Mark :=
  ⟨emission.point.labels.series, emission.site.point.time⟩

/-- Says whether the point is a count or a rate that went through the tracker. -/
def increase [Amount V] (settings : Settings) (emission : Emission V) : Bool :=
  emission.site.submits settings && emission.point.reading.adds

end Emission

namespace Converter

variable [Amount V]

/-- The points that data points give one after the other, each of them with its data point. -/
def emissionsOf (converter : Converter V) (now : Nat) : List (Site V) → List (Emission V)
  | [] => []
  | site :: rest =>
    let first := converter.convert now [site.alone]
    first.1.points.map (⟨site, ·⟩) ++ first.2.emissionsOf now rest

/-- The points that batches give one after the other, each of them with its data point. -/
def emissions (converter : Converter V) : List (Nat × Batch V) → List (Emission V)
  | [] => []
  | (now, batch) :: rest =>
    converter.emissionsOf now batch.sites ++ (converter.convert now batch).2.emissions rest

/-- The counts and rates that batches give through the tracker. -/
def increases (converter : Converter V) (batches : List (Nat × Batch V)) : List (Emission V) :=
  (converter.emissions batches).filter (Emission.increase converter.settings)

theorem points_emissionsOf (converter : Converter V) (now : Nat) (sites : List (Site V)) :
    (converter.emissionsOf now sites).map Emission.point =
      (converter.convertAll now (sites.map fun site => [site.alone])).1.flatMap
        Converted.points := by
  induction sites generalizing converter with
  | nil => rfl
  | cons site rest ih =>
    rw [emissionsOf, List.map_append, ih, List.map_map]
    exact congrArg (· ++ _) (List.map_id _)

theorem points_emissions (converter : Converter V) (batches : List (Nat × Batch V)) :
    (converter.emissions batches).map Emission.point =
      (converter.convertEach batches).1.flatMap Converted.points := by
  induction batches generalizing converter with
  | nil => rfl
  | cons timed rest ih =>
    obtain ⟨now, batch⟩ := timed
    rw [emissions, List.map_append, points_emissionsOf, ← (converter.convert_eq_alone now batch).1,
      ih]
    rfl

/-- A data point advances the tracker by the increases that it gives. -/
theorem advances_alone (converter : Converter V) (now : Nat) (site : Site V) :
    converter.tracker.Advances (converter.convert now [site.alone]).2.tracker
      ((((converter.convert now [site.alone]).1.points.map (Emission.mk site)).filter
        (Emission.increase converter.settings)).map Emission.mark) := by
  rw [List.filter_map, List.map_map]
  cases h : site.submits converter.settings with
  | false =>
    have hnone : Emission.increase converter.settings ∘ Emission.mk site = fun _ => false := by
      funext point
      simp [Emission.increase, h]
    rw [hnone, List.filter_false]
    refine .nil fun series time hr => ?_
    rw [tracker_convert]
    exact hr.observeAll now _
  | true =>
    have hadds : Emission.increase converter.settings ∘ Emission.mk site =
        fun point => point.reading.adds := by
      funext point
      simp [Emission.increase, h]
    obtain ⟨hp, ht⟩ := Plan.run_working now (site.alone.plan converter.settings) converter.tracker
    rw [hadds, fst_convert_singleton, tracker_convert_singleton, ← ht]
    show Tracker.Advances _ _ (marks site.point.time (Plan.run _ _ _).1.points)
    rw [← hp]
    exact Plan.advances (Site.addsAt h) now converter.tracker

theorem second_of_increase {converter : Converter V} {now : Nat} {site : Site V} {point : Point V}
    (hp : point ∈ (converter.convert now [site.alone]).1.points)
    (hi : Emission.increase converter.settings ⟨site, point⟩ = true) :
    point.second = site.point.time / Amount.second := by
  obtain ⟨hsubmits, hadds⟩ := Bool.and_eq_true_iff.mp hi
  rw [fst_convert_singleton, shown, ← (Plan.run_working _ _ _).1] at hp
  exact Plan.second_of_increase (Site.addsAt hsubmits) hp hadds

/-- Data points advance the tracker by the increases that they give. -/
theorem advances_emissionsOf (converter : Converter V) (now : Nat) (sites : List (Site V)) :
    converter.tracker.Advances
      (converter.convertAll now (sites.map fun site => [site.alone])).2.tracker
      (((converter.emissionsOf now sites).filter
        (Emission.increase converter.settings)).map Emission.mark) := by
  induction sites generalizing converter with
  | nil => exact .nil fun _ _ h => h
  | cons site rest ih =>
    rw [emissionsOf, List.filter_append, List.map_append]
    have hrest := ih (converter.convert now [site.alone]).2
    rw [settings_convert] at hrest
    exact (converter.advances_alone now site).append hrest

/-- Batches advance the tracker by the increases that they give. -/
theorem advances_increases (converter : Converter V) (batches : List (Nat × Batch V)) :
    converter.tracker.Advances (converter.convertEach batches).2.tracker
      ((converter.increases batches).map Emission.mark) := by
  induction batches generalizing converter with
  | nil => exact .nil fun _ _ h => h
  | cons timed rest ih =>
    obtain ⟨now, batch⟩ := timed
    have hbatch := converter.advances_emissionsOf now batch.sites
    rw [← (converter.convert_eq_alone now batch).2] at hbatch
    have hrest := ih (converter.convert now batch).2
    rw [increases, settings_convert] at hrest
    rw [increases, emissions, List.filter_append, List.map_append]
    exact hbatch.append hrest

theorem second_of_mem_emissionsOf {converter : Converter V} {now : Nat} {sites : List (Site V)}
    {emission : Emission V} (h : emission ∈ converter.emissionsOf now sites)
    (hi : emission.increase converter.settings = true) :
    emission.point.second = emission.site.point.time / Amount.second := by
  induction sites generalizing converter with
  | nil => exact absurd h List.not_mem_nil
  | cons site rest ih =>
    rcases List.mem_append.mp h with h | h
    · obtain ⟨point, hp, rfl⟩ := List.mem_map.mp h
      exact second_of_increase hp hi
    · exact ih h (by rwa [settings_convert])

theorem second_of_mem_increases {converter : Converter V} {batches : List (Nat × Batch V)}
    {emission : Emission V} (h : emission ∈ converter.increases batches) :
    emission.point.second = emission.site.point.time / Amount.second := by
  rw [increases, List.mem_filter] at h
  obtain ⟨h, hi⟩ := h
  induction batches generalizing converter with
  | nil => exact absurd h List.not_mem_nil
  | cons timed rest ih =>
    rcases List.mem_append.mp h with h | h
    · exact second_of_mem_emissionsOf h hi
    · exact ih h (by rwa [settings_convert])

/-- In any run without sweeps, whatever was seen before, the counts and rates that are given through
the tracker for one series come from data points with increasing times, so that there is at most
one for each time, and are reported for seconds that never go back. At the end of the run, and so
after each batch of it, the series that is read off the labels of any of them has an entry that
is at least as new as its data point. The fallback answers the same throughout. -/
theorem increases_advance (converter : Converter V) (batches : List (Nat × Batch V)) :
    let given := converter.convertEach batches
    let increases := converter.increases batches
    (converter.emissions batches).map Emission.point = given.1.flatMap Converted.points ∧
      (∀ series,
        let ofSeries := increases.filter fun increase => increase.point.labels.series = series
        (ofSeries.map fun increase => increase.site.point.time).Pairwise (· < ·) ∧
          (ofSeries.map fun increase => increase.point.second).Pairwise (· ≤ ·)) ∧
      ∀ increase ∈ increases, ∃ entry,
        given.2.tracker.entries.get? increase.point.labels.series = some entry ∧
          increase.site.point.time ≤ entry.time := by
  intro given increases
  have hadvances := converter.advances_increases batches
  refine ⟨converter.points_emissions batches, fun series => ?_, fun increase hi => ?_⟩
  · intro ofSeries
    have htimes : ofSeries.Pairwise fun a b => a.site.point.time < b.site.point.time := by
      refine List.pairwise_filter.mpr ((List.pairwise_map.mp hadvances.increasing).imp ?_)
      exact fun hlt ha hb => hlt ((of_decide_eq_true ha).trans (of_decide_eq_true hb).symm)
    refine ⟨List.pairwise_map.mpr htimes, List.pairwise_map.mpr (htimes.imp_of_mem ?_)⟩
    intro a b ha hb hlt
    rw [second_of_mem_increases (List.mem_filter.mp ha).1,
      second_of_mem_increases (List.mem_filter.mp hb).1]
    exact Nat.div_le_div_right (Nat.le_of_lt hlt)
  · obtain ⟨held, hs, ht⟩ := hadvances.reached _ (List.mem_map_of_mem hi)
    obtain ⟨entry, he, rfl⟩ := Option.map_eq_some_iff.mp hs
    exact ⟨entry, he, ht⟩

/-- A cumulative histogram without bounds. -/
def latencyBy (time count : Nat) (sum : Rat) : Batch Rat :=
  [⟨[], [⟨none, [⟨"latency",
    .histogram 2 [⟨time, [], 0, ⟨⟨count, some sum, none, none⟩, [], [count]⟩⟩]⟩]⟩]⟩]

theorem increases_of_latency :
    let converter : Converter Rat :=
      ⟨{ Settings.default with aggregations := true }, .empty 0, .collector, false, .zero⟩
    let batches := [(0, latencyBy 1 2 3), (0, latencyBy 5 4 6), (0, latencyBy 3 3 5),
      (0, latencyBy 9 5 8)]
    let increases := converter.increases batches
    increases.map (fun increase => (increase.point.labels.name, increase.site.point.time)) =
        [("latency.count", 5), ("latency.sum", 5), ("latency.count", 9), ("latency.sum", 9)] ∧
      ∀ increase ∈ increases, ∃ entry,
        (converter.convertEach batches).2.tracker.entries.get? increase.point.labels.series =
            some entry ∧
          increase.site.point.time ≤ entry.time := by
  intro converter batches increases
  obtain ⟨-, -, hreached⟩ := increases_advance converter batches
  exact ⟨by decide +kernel, hreached⟩

end Converter

end MetricPoints
