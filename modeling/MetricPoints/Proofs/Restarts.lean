import Mathlib.Algebra.Order.BigOperators.Group.List
import Mathlib.Tactic.Linarith
import MetricPoints.Proofs.Buckets
import MetricPoints.Proofs.Increases
import MetricPoints.Proofs.Statistics

/-
  Restarts of a histogram. Its count and each of its buckets is a running total of its own, and
  each of them is told by itself whether it has dropped since the last report. The invariant of a
  run is that the tracker stores all totals of the last report (`Histogram.Stored`); so every later
  report gives one increase of the count and one of each bucket (`told_of_stored`). Whether they
  add up depends on which totals have dropped: a bucket that has dropped is counted in full, and so
  is the count (`sum_growths_add`).

  Main statement: `Histogram.restarts_are_told_bucket_by_bucket`.
-/

namespace MetricPoints

variable {V : Type}

/-! ## Growth -/

/-- What a total has grown by since the previous one. One that has dropped was counted anew. -/
def growth [Amount V] (previous current : V) : V :=
  if Amount.less current previous then current else Amount.minus current previous

theorem Change.increase?_step [Amount V] (previous current : V) (elapsed : Nat) :
    (Change.step previous current elapsed).increase? = some (growth previous current) := rfl

/-- What each count has grown by. -/
def growths [Amount V] (previous current : List Nat) : List V :=
  previous.zipWith (fun p c => growth (Amount.ofNat p) (Amount.ofNat c)) current

theorem growths_cons [Amount V] (p c : Nat) (previous current : List Nat) :
    (growths (p :: previous) (c :: current) : List V) =
      growth (Amount.ofNat p) (Amount.ofNat c) :: growths previous current := rfl

theorem length_growths [Amount V] {previous current : List Nat}
    (h : previous.length = current.length) :
    (growths previous current : List V).length = current.length := by
  rw [growths, List.length_zipWith, h, Nat.min_self]

/-- What the counts that have dropped add up to before they do. -/
def dropped : List Nat → List Nat → Nat
  | p :: previous, c :: current => (if c < p then p else 0) + dropped previous current
  | _, _ => 0

theorem growth_of_lt {p c : Nat} (h : c < p) : growth (p : Rat) (c : Rat) = c := by
  have : (c : Rat) < p := by exact_mod_cast h
  exact if_pos (decide_eq_true this)

theorem growth_of_le {p c : Nat} (h : p ≤ c) : growth (p : Rat) (c : Rat) = c - p := by
  have : ¬(c : Rat) < p := by exact_mod_cast Nat.not_lt.mpr h
  exact if_neg fun h => this (of_decide_eq_true h)

/-- Growths add up to the growth of the sum, but for what has dropped. -/
theorem sum_growths_add {previous current : List Nat} (h : previous.length = current.length) :
    (growths previous current : List Rat).sum + (previous.sum : Nat) =
      (current.sum : Nat) + (dropped previous current : Nat) := by
  induction previous generalizing current with
  | nil =>
    rw [List.eq_nil_of_length_eq_zero h.symm]
    simp [growths, dropped]
  | cons p previous ih =>
    cases current with
    | nil => exact absurd h (by simp)
    | cons c current =>
      have hrest := ih (by simpa using h)
      have hcons : (growths (p :: previous) (c :: current) : List Rat) =
          growth (p : Rat) (c : Rat) :: growths previous current := growths_cons ..
      rw [hcons, dropped, List.sum_cons, List.sum_cons, List.sum_cons, Nat.cast_add, Nat.cast_add,
        Nat.cast_add]
      rcases Nat.lt_or_ge c p with hlt | hle
      · rw [growth_of_lt hlt, if_pos hlt]
        linarith
      · rw [growth_of_le hle, if_neg (Nat.not_lt.mpr hle), Nat.cast_zero]
        linarith

/-- Nothing has dropped. -/
theorem dropped_eq_zero_iff {previous current : List Nat} :
    dropped previous current = 0 ↔ ∀ e ∈ previous.zip current, e.1 ≤ e.2 := by
  induction previous generalizing current with
  | nil => simp [dropped]
  | cons p previous ih =>
    cases current with
    | nil => simp [dropped]
    | cons c current =>
      rw [dropped, Nat.add_eq_zero_iff, ih, List.zip_cons_cons, List.forall_mem_cons]
      refine and_congr_left fun _ => ?_
      show (if c < p then p else 0) = 0 ↔ p ≤ c
      split <;> omega

theorem dropped_le_sum (previous current : List Nat) :
    dropped previous current ≤ previous.sum := by
  induction previous generalizing current with
  | nil => simp [dropped]
  | cons p previous ih =>
    cases current with
    | nil => simp [dropped]
    | cons c current =>
      have hrest := ih current
      rw [dropped, List.sum_cons]
      split <;> omega

/-- All has dropped that was not empty. -/
theorem dropped_eq_sum_iff {previous current : List Nat} (h : previous.length = current.length) :
    dropped previous current = previous.sum ↔
      ∀ e ∈ previous.zip current, e.1 ≤ e.2 → e.1 = 0 := by
  induction previous generalizing current with
  | nil => simp [dropped]
  | cons p previous ih =>
    cases current with
    | nil => exact absurd h (by simp)
    | cons c current =>
      have hle := dropped_le_sum previous current
      rw [List.zip_cons_cons, List.forall_mem_cons, ← ih (by simpa using h), dropped,
        List.sum_cons]
      show (if c < p then p else 0) + _ = p + _ ↔ (p ≤ c → p = 0) ∧ _
      split <;> omega

theorem sum_le_sum_of_le {previous current : List Nat} (h : previous.length = current.length)
    (hle : ∀ e ∈ previous.zip current, e.1 ≤ e.2) : previous.sum ≤ current.sum :=
  List.Forall₂.sum_le_sum (List.forall₂_iff_zip.mpr ⟨h, fun hm => hle _ hm⟩)

/-- Growths add up to the growth of the sum exactly if nothing has dropped, or the sum has and
everything with it that was not empty. -/
theorem sum_growths_eq_iff {previous current : List Nat} (h : previous.length = current.length) :
    (growths previous current : List Rat).sum =
        growth ((previous.sum : Nat) : Rat) ((current.sum : Nat) : Rat) ↔
      (∀ e ∈ previous.zip current, e.1 ≤ e.2) ∨
        current.sum < previous.sum ∧ ∀ e ∈ previous.zip current, e.1 ≤ e.2 → e.1 = 0 := by
  have hsum := sum_growths_add h
  rcases Nat.lt_or_ge current.sum previous.sum with hlt | hle
  · have hnot : ¬∀ e ∈ previous.zip current, e.1 ≤ e.2 := fun hall =>
      Nat.not_le_of_lt hlt (sum_le_sum_of_le h hall)
    rw [growth_of_lt hlt, or_iff_right hnot, and_iff_right hlt, ← dropped_eq_sum_iff h]
    constructor
    · intro he
      have : ((dropped previous current : Nat) : Rat) = (previous.sum : Nat) := by linarith
      exact_mod_cast this
    · intro he
      rw [he] at hsum
      linarith
  · rw [growth_of_le hle, or_iff_left (fun hr => Nat.not_lt.mpr hle hr.1), ← dropped_eq_zero_iff]
    constructor
    · intro he
      have : ((dropped previous current : Nat) : Rat) = (0 : Nat) := by
        rw [Nat.cast_zero]
        linarith
      exact_mod_cast this
    · intro he
      rw [he, Nat.cast_zero] at hsum
      linarith

/-! ## The totals of a report -/

/-- The points of the buckets of a histogram with these labels. -/
def bucketPoints (labels : Labels) (points : List (Point V)) : List (Point V) :=
  points.filter (·.labels.name = (labels.suffixed "bucket").name)

/-- The point of a bucket. -/
def bucketPoint (labels : Labels) (time : Nat) (bucket : (String × String) × V) : Point V :=
  .at time (Histogram.bucketLabels labels bucket.1) (.count bucket.2)

namespace Histogram

/-- The series of a histogram with these bounds that count: one for all, and one for each bucket. -/
def counters (labels : Labels) (bounds : List Float) : List Labels :=
  labels.suffixed "count" :: (bucketEdges bounds).map (bucketLabels labels)

/-- The totals of a report, each with its labels. -/
def totals (labels : Labels) (histogram : Histogram V) : List (Labels × Nat) :=
  (labels.suffixed "count", histogram.stats.count) ::
    ((bucketEdges histogram.bounds).zip histogram.counts).map fun bucket =>
      (bucketLabels labels bucket.1, bucket.2)

/-- A report with these bounds and one bucket more than bounds, which add up to the count; it has
no sum. -/
structure Tallies (bounds : List Float) (histogram : Histogram V) : Prop where
  bounds_eq : histogram.bounds = bounds
  length_eq : histogram.counts.length = bounds.length + 1
  sum_eq : histogram.counts.sum = histogram.stats.count
  noSum : histogram.stats.sum = none

theorem Tallies.fst_totals {bounds : List Float} {histogram : Histogram V}
    (h : histogram.Tallies bounds) (labels : Labels) :
    (histogram.totals labels).map Prod.fst = counters labels bounds := by
  have hle : (bucketEdges bounds).length ≤ histogram.counts.length := by
    rw [length_bucketEdges, h.length_eq]
  rw [totals, counters, List.map_cons, List.map_map, h.bounds_eq]
  conv_rhs => rw [← List.map_fst_zip hle, List.map_map]
  rfl

theorem Tallies.length_counts_eq {bounds : List Float} {previous histogram : Histogram V}
    (hprevious : previous.Tallies bounds) (h : histogram.Tallies bounds) :
    previous.counts.length = histogram.counts.length := by
  rw [hprevious.length_eq, h.length_eq]

theorem map_labels_bucketPoint {labels : Labels} {time : Nat} {edges : List (String × String)}
    {values : List V} (h : edges.length = values.length) :
    ((edges.zip values).map (bucketPoint labels time)).map Point.labels =
      edges.map (bucketLabels labels) := by
  conv_rhs => rw [← List.map_fst_zip (Nat.le_of_eq h), List.map_map]
  rw [List.map_map]
  rfl

theorem scalars_bucketPoint {labels : Labels} {time : Nat} {edges : List (String × String)}
    {values : List V} (h : edges.length = values.length) :
    ((edges.zip values).map (bucketPoint labels time)).filterMap (·.reading.scalar?) = values := by
  rw [List.filterMap_map]
  show (edges.zip values).filterMap (some ∘ Prod.snd) = values
  rw [List.filterMap_eq_map, List.map_snd_zip (Nat.le_of_eq h.symm)]

variable [Amount V]

/-- The sample of a total. -/
def sampleOf (time : Nat) (total : Labels × Nat) : Sample V :=
  ⟨total.1, time, Amount.ofNat total.2⟩

/-- The increase of a total at a time, if it has one. -/
def increaseOf (tracker : Tracker V) (time : Nat) (total : Labels × Nat) : Option V :=
  (tracker.changeFor (sampleOf time total)).increase?

/-- The tracker stores the totals of the last report; or none, if there was no report. -/
def Stored (labels : Labels) (bounds : List Float) (tracker : Tracker V) :
    Option (Nat × Histogram V) → Prop
  | none => ∀ counter ∈ counters labels bounds, tracker.stored? counter.series = none
  | some (time, histogram) => ∀ total ∈ histogram.totals labels,
    tracker.stored? total.1.series = some ⟨time, Amount.ofNat total.2⟩

section Reports

variable {settings : Settings} (hmode : settings.bucketMode = .counters)
  (haggregations : settings.aggregations = true) {labels : Labels}
  (hlower : ∀ tag ∈ labels.tags, tag.name ≠ "lower_bound") {bounds : List Float}
  (hfinite : ∀ bound ∈ bounds, bound.isFinite = true) (hincreasing : bounds.Pairwise (· < ·))
  {histogram : Histogram V} (h : histogram.Tallies bounds) (time : Nat)

omit [Amount V] in
include haggregations in
theorem showsStatistics_of_aggregations : settings.showsStatistics = true := by
  rw [Settings.showsStatistics, haggregations, Bool.or_true]

include hmode h in
theorem detailPlan_of_tallies :
    histogram.detailPlan settings labels time .cumulative =
      ((bucketEdges bounds).zip histogram.counts).map (bucketStep labels time .cumulative) := by
  have hne : histogram.counts ≠ [] := by
    intro e
    have hlength := h.length_eq
    rw [e] at hlength
    exact absurd hlength (by simp)
  have hlength : histogram.counts.length = histogram.bounds.length + 1 := by
    rw [h.bounds_eq, h.length_eq]
  unfold detailPlan
  rw [hmode]
  simp only
  rw [bucketPlan, if_neg hne, if_pos hlength, h.bounds_eq]

include hmode h in
theorem samples_detailPlan :
    (histogram.detailPlan settings labels time .cumulative).samples =
      ((bucketEdges bounds).zip histogram.counts).map fun bucket =>
        sampleOf time (bucketLabels labels bucket.1, bucket.2) := by
  rw [detailPlan_of_tallies hmode h, Plan.samples, List.flatMap_map]
  exact List.map_eq_flatMap.symm

include hmode haggregations h in
/-- Every total of a report is a sample. -/
theorem sampleOf_mem_samples {total : Labels × Nat} (ht : total ∈ histogram.totals labels) :
    sampleOf time total ∈ (histogram.plan settings labels time .cumulative).samples := by
  rw [samples_plan (showsStatistics_of_aggregations haggregations), List.mem_append]
  rcases List.mem_cons.mp ht with rfl | ht
  · exact .inl (Aggregates.mem_samples.mpr ⟨.count, _, rfl, rfl⟩)
  · obtain ⟨bucket, hb, rfl⟩ := List.mem_map.mp ht
    rw [samples_detailPlan hmode h, ← h.bounds_eq]
    exact .inr (List.mem_map.mpr ⟨bucket, hb, rfl⟩)

include hmode haggregations hlower hfinite hincreasing h in
/-- The samples of a report are of distinct series. -/
theorem nodup_series_samples_plan :
    ((histogram.plan settings labels time .cumulative).samples.map Sample.series).Nodup := by
  have hle : (bucketEdges bounds).length ≤ histogram.counts.length := by
    rw [length_bucketEdges, h.length_eq]
  rw [samples_plan (showsStatistics_of_aggregations haggregations), List.map_append,
    List.nodup_append]
  refine ⟨Aggregates.nodup_series_samples _, ?_, ?_⟩
  · have hbuckets := nodup_series_buckets hlower hfinite hincreasing
    rw [samples_detailPlan hmode h, List.map_map]
    rw [← List.map_fst_zip hle, List.map_map] at hbuckets
    exact hbuckets
  · intro series hstatistic other hdetail
    obtain ⟨sample, hs, rfl⟩ := List.mem_map.mp hstatistic
    obtain ⟨detail, hd, rfl⟩ := List.mem_map.mp hdetail
    obtain ⟨statistic, value, -, rfl⟩ := Aggregates.mem_samples.mp hs
    exact (series_ne_of_mem_detailPlan hd statistic).symm

omit [Amount V] in
theorem bucketPoints_flatMap {α : Type} (labels : Labels) (xs : List α)
    (points : α → List (Point V)) :
    bucketPoints labels (xs.flatMap points) = xs.flatMap fun x => bucketPoints labels (points x) :=
  List.filter_flatMap ..

/-- Statistics have other names than buckets. -/
theorem bucketPoints_of_mem_statsPlan {stats : Stats V} {step : Step V}
    (hs : step ∈ stats.plan settings labels time .cumulative) (tracker : Tracker V) :
    bucketPoints labels (step.outcomeFrom tracker).points = [] := by
  have hname : ∀ other ∈ step.labels, other.name ≠ (labels.suffixed "bucket").name := by
    intro other ho
    unfold Stats.plan at hs
    split at hs
    · rcases List.mem_append.mp hs with hs | hs
      · rw [(Stats.labels_of_mem_remarks hs).1] at ho
        exact absurd ho List.not_mem_nil
      · rw [List.mem_singleton.mp hs] at ho
        obtain ⟨statistic, -, rfl⟩ := List.mem_map.mp ho
        intro e
        have hsuffix : statistic.name = "bucket" := Labels.name_suffixed_inj e
        revert hsuffix
        cases statistic <;> decide
    · exact absurd hs List.not_mem_nil
  rw [bucketPoints, List.filter_eq_nil_iff]
  intro point hp
  have hlabels := (step.sublist_labels _).subset (List.mem_map_of_mem hp)
  simpa using hname _ hlabels

/-- A bucket gives its increase, if it has one. -/
theorem bucketPoints_bucketStep (bucket : (String × String) × Nat) (tracker : Tracker V) :
    bucketPoints labels ((bucketStep labels time .cumulative bucket).outcomeFrom tracker).points =
      (increaseOf tracker time (bucketLabels labels bucket.1, bucket.2)).toList.map fun value =>
        bucketPoint labels time (bucket.1, value) := by
  have hpoints (sample : Sample V) (change : Change V) : (Role.outcome .part sample change).points =
      change.increase?.toList.map fun value => .at sample.time sample.labels (.count value) := by
    cases change <;> rfl
  have hall := hpoints (sampleOf time (bucketLabels labels bucket.1, bucket.2))
    (tracker.changeFor (sampleOf time (bucketLabels labels bucket.1, bucket.2)))
  refine (congrArg (bucketPoints labels) hall).trans (List.filter_eq_self.mpr fun point hp => ?_)
  obtain ⟨value, -, rfl⟩ := List.mem_map.mp hp
  exact decide_eq_true rfl

include hmode haggregations hlower hfinite hincreasing h in
/-- Every bucket of a report gives its increase, in order. -/
theorem bucketPoints_run_plan (now : Nat) (tracker : Tracker V) :
    bucketPoints labels
        (Plan.run now (histogram.plan settings labels time .cumulative) tracker).1.points =
      ((bucketEdges bounds).zip histogram.counts).flatMap fun bucket =>
        (increaseOf tracker time (bucketLabels labels bucket.1, bucket.2)).toList.map fun value =>
          bucketPoint labels time (bucket.1, value) := by
  have hnodup := nodup_series_samples_plan hmode haggregations hlower hfinite hincreasing h time
  rw [Plan.outcome_run_of_nodup now hnodup, Outcome.points_join, List.flatMap_map,
    bucketPoints_flatMap, plan_eq, List.flatMap_append,
    List.flatMap_eq_nil_iff.mpr fun step hs => bucketPoints_of_mem_statsPlan time hs tracker,
    List.nil_append, detailPlan_of_tallies hmode h, List.flatMap_map]
  exact congrArg (fun points => List.flatMap points _)
    (funext fun bucket => bucketPoints_bucketStep time bucket tracker)

include haggregations h in
/-- The count of a report without a sum gives its increase, if it has one. -/
theorem pointsAt_count_run_plan (now : Nat) (tracker : Tracker V) :
    pointsAt (labels.suffixed "count")
        (Plan.run now (histogram.plan settings labels time .cumulative) tracker).1.points =
      (increaseOf tracker time (labels.suffixed "count", histogram.stats.count)).toList.map
        fun value => .at time (labels.suffixed "count") (.count value) := by
  have hsum : (Aggregates.of settings labels time histogram.stats).sum = none :=
    congrArg (Option.filter Amount.finite) h.noSum
  have hcount := (Aggregates.of settings labels time histogram.stats).pointsAt_count tracker
  rw [hsum, Option.isNone_none, Bool.true_or, if_pos rfl] at hcount
  refine (histogram.pointsAt_run_plan (showsStatistics_of_aggregations haggregations) labels time
    now tracker .count).trans (hcount.trans rfl)

end Reports

/-! ## What is stored between reports -/

section Increases

variable {labels : Labels} {bounds : List Float} {tracker : Tracker V} {time next : Nat}

theorem increaseOf_of_unseen {total : Labels × Nat}
    (h : tracker.stored? total.1.series = none) : increaseOf tracker time total = none := by
  rw [increaseOf, Tracker.changeFor_eq, sampleOf, Sample.series, h]
  rfl

theorem increaseOf_of_stored (total : Labels × Nat) {value : V}
    (h : tracker.stored? total.1.series = some ⟨time, value⟩) (ht : time < next) :
    increaseOf tracker next total = some (growth value (Amount.ofNat total.2)) := by
  rw [increaseOf, Tracker.changeFor_of_stored (sampleOf next total) h ht]
  exact Change.increase?_step ..

/-- Buckets whose last counts are stored have grown from these. -/
theorem flatMap_increaseOf_of_stored (ht : time < next) {edges : List (String × String)}
    {previous current : List Nat} (hlength : edges.length ≤ previous.length)
    (h : ∀ bucket ∈ edges.zip previous, tracker.stored? (bucketLabels labels bucket.1).series =
      some ⟨time, Amount.ofNat bucket.2⟩) :
    ((edges.zip current).flatMap fun bucket =>
        (increaseOf tracker next (bucketLabels labels bucket.1, bucket.2)).toList.map fun value =>
          bucketPoint labels next (bucket.1, value)) =
      (edges.zip (growths previous current)).map (bucketPoint labels next) := by
  induction edges generalizing previous current with
  | nil => rfl
  | cons edge edges ih =>
    cases previous with
    | nil => exact absurd hlength (by simp)
    | cons p previous =>
      obtain ⟨hfirst, hrest⟩ := List.forall_mem_cons.mp h
      cases current with
      | nil => rfl
      | cons c current =>
        rw [List.zip_cons_cons, List.flatMap_cons, ih (Nat.le_of_succ_le_succ hlength) hrest,
          growths_cons, List.zip_cons_cons, List.map_cons,
          increaseOf_of_stored (bucketLabels labels edge, c) hfirst ht]
        rfl

end Increases

section Stored

variable {labels : Labels} {bounds : List Float} {tracker other : Tracker V}
  {last : Option (Nat × Histogram V)} (h : Stored labels bounds tracker last)
  (hlast : ∀ report ∈ last, report.2.Tallies bounds)

include h hlast

/-- What is stored of a counter is of the time of the last report. -/
theorem Stored.time_eq {counter : Labels} (hc : counter ∈ counters labels bounds)
    {held : Observation V} (hh : tracker.stored? counter.series = some held) :
    ∃ report ∈ last, held.time = report.1 := by
  cases last with
  | none => exact absurd (hh.symm.trans (h counter hc)) (by simp)
  | some report =>
    rw [← (hlast report rfl).fst_totals labels] at hc
    obtain ⟨total, ht, rfl⟩ := List.mem_map.mp hc
    rw [h total ht, Option.some_inj] at hh
    exact ⟨report, rfl, hh ▸ rfl⟩

theorem Stored.congr (hsame : ∀ counter ∈ counters labels bounds,
    other.stored? counter.series = tracker.stored? counter.series) :
    Stored labels bounds other last := by
  cases last with
  | none => exact fun counter hc => (hsame counter hc).trans (h counter hc)
  | some report =>
    intro total ht
    have hc : total.1 ∈ counters labels bounds := by
      rw [← (hlast report rfl).fst_totals labels]
      exact List.mem_map_of_mem ht
    exact (hsame total.1 hc).trans (h total ht)

end Stored

end Histogram

/-! ## Runs -/

/-- What is done while a histogram is watched: it is reported, or anything else is done. -/
inductive Episode (V : Type) where
  | report (time : Nat) (histogram : Histogram V)
  | meanwhile (action : Action V)

namespace Episode

/-- What is done at the station. -/
def action [Amount V] (settings : Settings) (labels : Labels) : Episode V → Action V
  | report time histogram => .run (histogram.plan settings labels time .cumulative)
  | meanwhile action => action

/-- The report, with its time. -/
def report? : Episode V → Option (Nat × Histogram V)
  | report time histogram => some (time, histogram)
  | meanwhile _ => none

end Episode

namespace Histogram

/-- A run of reports with the same bounds, newer and newer, from a station that knows none of the
counters, never forgets one, and observes them in the reports only. -/
structure Undisturbed [Amount V] (settings : Settings) (labels : Labels) (bounds : List Float)
    (station : Station V) (episodes : List (Episode V)) : Prop where
  unknown : ∀ counter ∈ counters labels bounds, station.tracker.knows counter.series = false
  retained : ∀ counter ∈ counters labels bounds,
    station.Retains counter.series (episodes.map (Episode.action settings labels))
  alone : ∀ action, .meanwhile action ∈ episodes → ∀ counter ∈ counters labels bounds,
    action.observations counter.series = []
  newer : ((episodes.filterMap Episode.report?).map Prod.fst).Pairwise (· < ·)
  tallies : ∀ report ∈ episodes.filterMap Episode.report?, report.2.Tallies bounds

section Runs

variable [Amount V] {settings : Settings} (hmode : settings.bucketMode = .counters)
  (haggregations : settings.aggregations = true) {labels : Labels}
  (hlower : ∀ tag ∈ labels.tags, tag.name ≠ "lower_bound") {bounds : List Float}
  (hfinite : ∀ bound ∈ bounds, bound.isFinite = true) (hincreasing : bounds.Pairwise (· < ·))
  {station : Station V} {last : Option (Nat × Histogram V)}

include hmode haggregations hlower hfinite hincreasing

/-- A report that is newer than the last one takes its place. -/
theorem Stored.report {time : Nat} {histogram : Histogram V}
    (hstored : Stored labels bounds station.tracker last)
    (hlast : ∀ report ∈ last, report.2.Tallies bounds) (hnewer : ∀ report ∈ last, report.1 < time)
    (h : histogram.Tallies bounds)
    (hkept : ∀ counter ∈ counters labels bounds, station.forgets
      (.run (histogram.plan settings labels time .cumulative)) counter.series = false) :
    Stored labels bounds
      (station.act (.run (histogram.plan settings labels time .cumulative))).2.tracker
      (some (time, histogram)) := by
  intro total ht
  have hc : total.1 ∈ counters labels bounds := by
    rw [← h.fst_totals labels]
    exact List.mem_map_of_mem ht
  have hobserved := Tracker.observationsOf_of_nodup
    (nodup_series_samples_plan hmode haggregations hlower hfinite hincreasing h time)
    (sampleOf_mem_samples hmode haggregations h time ht)
  have hafter := Station.stored?_act_of_not_forgets (hkept total.1 hc)
  rw [show Action.observations total.1.series (.run _) = _ from hobserved] at hafter
  refine hafter.trans (congrArg some ?_)
  cases hheld : station.tracker.stored? total.1.series with
  | none => rfl
  | some held =>
    obtain ⟨report, hr, htime⟩ := hstored.time_eq hlast hc hheld
    exact if_neg (Nat.not_le_of_lt (htime ▸ hnewer report hr))

/-- After a run the totals of its last report are stored. -/
theorem Stored.after {episodes : List (Episode V)}
    (hstored : Stored labels bounds station.tracker last)
    (hretained : ∀ counter ∈ counters labels bounds,
      station.Retains counter.series (episodes.map (Episode.action settings labels)))
    (halone : ∀ action, .meanwhile action ∈ episodes → ∀ counter ∈ counters labels bounds,
      action.observations counter.series = [])
    (hnewer : ((last.toList ++ episodes.filterMap Episode.report?).map Prod.fst).Pairwise (· < ·))
    (htallies : ∀ report ∈ last.toList ++ episodes.filterMap Episode.report?,
      report.2.Tallies bounds) :
    Stored labels bounds (station.after (episodes.map (Episode.action settings labels))).tracker
      (last.toList ++ episodes.filterMap Episode.report?).getLast? := by
  induction episodes generalizing station last with
  | nil => cases last <;> exact hstored
  | cons episode rest ih =>
    have hlast : ∀ report ∈ last, report.2.Tallies bounds := fun report hr =>
      htallies report (List.mem_append_left _ (Option.mem_toList.mpr hr))
    have hrest := fun counter hc => (hretained counter hc).2
    have halone' := fun action ha => halone action (List.mem_cons_of_mem _ ha)
    rw [List.map_cons, Station.after_cons]
    cases episode with
    | meanwhile action =>
      refine ih (hstored.congr hlast fun counter hc => ?_) hrest halone' hnewer htallies
      have hnone : Action.observations counter.series action = [] :=
        halone action List.mem_cons_self counter hc
      have hafter := Station.stored?_act_of_not_forgets (hretained counter hc).1
      rwa [Episode.action, hnone] at hafter
    | report time histogram =>
      have hsuffix : ((time, histogram) :: rest.filterMap Episode.report?).Sublist
          (last.toList ++ (time, histogram) :: rest.filterMap Episode.report?) :=
        List.sublist_append_right _ _
      have htime : ∀ report ∈ last, report.1 < time := by
        intro report hr
        rw [List.map_append, List.pairwise_append] at hnewer
        exact hnewer.2.2 _ (List.mem_map_of_mem (Option.mem_toList.mpr hr)) _ List.mem_cons_self
      have hreport := hstored.report hmode haggregations hlower hfinite hincreasing hlast htime
        (htallies _ (hsuffix.mem List.mem_cons_self)) fun counter hc => (hretained counter hc).1
      have hafter := ih hreport hrest halone' (hnewer.sublist (hsuffix.map _))
        fun report hr => htallies report (hsuffix.mem hr)
      rw [show (last.toList ++ (Episode.report time histogram :: rest).filterMap
        Episode.report?).getLast? = _ from List.getLast?_append_of_ne_nil _ (List.cons_ne_nil _ _)]
      exact hafter

/-- What the points of a report tell, given the report before it: nothing of the count and of the
buckets if it is the first one, or else the growth of the count, and of every bucket in order. -/
def Told (labels : Labels) (bounds : List Float) (time : Nat) (histogram : Histogram V)
    (points : List (Point V)) : Option (Nat × Histogram V) → Prop
  | none => pointsAt (labels.suffixed "count") points = [] ∧ bucketPoints labels points = []
  | some (_, previous) =>
    pointsAt (labels.suffixed "count") points =
        [.at time (labels.suffixed "count") (.count (growth
          (Amount.ofNat previous.stats.count) (Amount.ofNat histogram.stats.count)))] ∧
      (bucketPoints labels points).map Point.labels =
        (bucketEdges bounds).map (bucketLabels labels) ∧
      bucketPoints labels points =
        ((bucketEdges bounds).zip (growths previous.counts histogram.counts)).map
          (bucketPoint labels time)

/-- A report tells the growth since the totals that are stored. -/
theorem told_of_stored {tracker : Tracker V} {time : Nat} {histogram : Histogram V}
    (hstored : Stored labels bounds tracker last)
    (hlast : ∀ report ∈ last, report.2.Tallies bounds) (hnewer : ∀ report ∈ last, report.1 < time)
    (h : histogram.Tallies bounds) (now : Nat) :
    Told labels bounds time histogram
      (Plan.run now (histogram.plan settings labels time .cumulative) tracker).1.points last := by
  have hcount : pointsAt (labels.suffixed "count") _ = _ :=
    pointsAt_count_run_plan haggregations h time now tracker
  have hbuckets :=
    bucketPoints_run_plan hmode haggregations hlower hfinite hincreasing h time now tracker
  cases last with
  | none =>
    refine ⟨hcount.trans ?_, hbuckets.trans (List.flatMap_eq_nil_iff.mpr fun bucket hb => ?_)⟩
    · rw [increaseOf_of_unseen (hstored _ List.mem_cons_self)]
      rfl
    · have hc : bucketLabels labels bucket.1 ∈ counters labels bounds :=
        List.mem_cons_of_mem _ (List.mem_map_of_mem (List.of_mem_zip hb).1)
      rw [increaseOf_of_unseen (hstored _ hc)]
      rfl
  | some report =>
    obtain ⟨before, previous⟩ := report
    have hlt : before < time := hnewer _ rfl
    have hprevious : previous.Tallies bounds := hlast _ rfl
    have hgrown : bucketPoints labels _ = _ :=
      hbuckets.trans <| flatMap_increaseOf_of_stored hlt
        (by rw [length_bucketEdges, hprevious.length_eq]) fun bucket hb => by
          rw [← hprevious.bounds_eq] at hb
          exact hstored _ (List.mem_cons_of_mem _ (List.mem_map_of_mem
            (f := fun bucket : (String × String) × Nat =>
              (bucketLabels labels bucket.1, bucket.2)) hb))
    refine ⟨hcount.trans ?_, ?_, hgrown⟩
    · have hheld : tracker.stored? (labels.suffixed "count").series =
          some ⟨before, Amount.ofNat previous.stats.count⟩ := hstored _ List.mem_cons_self
      rw [increaseOf_of_stored (labels.suffixed "count", histogram.stats.count) hheld hlt]
      rfl
    · rw [hgrown]
      apply map_labels_bucketPoint
      rw [length_growths (hprevious.length_counts_eq h), length_bucketEdges, h.length_eq]

end Runs

section Told

variable [Amount V] {settings : Settings} {labels : Labels} {bounds : List Float}

/-- The points of a report after a run. -/
def reported (settings : Settings) (labels : Labels) (station : Station V)
    (episodes : List (Episode V)) (time : Nat) (histogram : Histogram V) : List (Point V) :=
  let before := station.after (episodes.map (Episode.action settings labels))
  (Plan.run before.now (histogram.plan settings labels time .cumulative) before.tracker).1.points

variable {station : Station V} {episodes : List (Episode V)} {time : Nat} {histogram : Histogram V}
  (h : Undisturbed settings labels bounds station (episodes ++ [.report time histogram]))

include h

theorem Undisturbed.tallies_last : histogram.Tallies bounds := by
  apply h.tallies (time, histogram)
  rw [List.filterMap_append]
  exact List.mem_append_right _ List.mem_cons_self

theorem Undisturbed.tallies_of_mem {report : Nat × Histogram V}
    (hr : report ∈ episodes.filterMap Episode.report?) : report.2.Tallies bounds := by
  apply h.tallies report
  rw [List.filterMap_append]
  exact List.mem_append_left _ hr

theorem Undisturbed.lt_of_mem {report : Nat × Histogram V}
    (hr : report ∈ episodes.filterMap Episode.report?) : report.1 < time := by
  have hnewer := h.newer
  rw [List.filterMap_append, List.map_append, List.pairwise_append] at hnewer
  exact hnewer.2.2 _ (List.mem_map_of_mem hr) _ List.mem_cons_self

/-- After the run the totals of its last report are stored. -/
theorem Undisturbed.stored (hmode : settings.bucketMode = .counters)
    (haggregations : settings.aggregations = true)
    (hlower : ∀ tag ∈ labels.tags, tag.name ≠ "lower_bound")
    (hfinite : ∀ bound ∈ bounds, bound.isFinite = true)
    (hincreasing : bounds.Pairwise (· < ·)) :
    Stored labels bounds (station.after (episodes.map (Episode.action settings labels))).tracker
      (episodes.filterMap Episode.report?).getLast? := by
  have hunseen : Stored labels bounds station.tracker none := fun counter hc =>
    Station.stored?_eq_none (h.unknown counter hc)
  refine hunseen.after hmode haggregations hlower hfinite hincreasing (fun counter hc => ?_)
    (fun action ha => h.alone action (List.mem_append_left _ ha)) ?_ fun report hr => ?_
  · have hretained := h.retained counter hc
    rw [List.map_append] at hretained
    exact hretained.of_append
  · have hnewer := h.newer
    rw [List.filterMap_append, List.map_append] at hnewer
    exact (List.pairwise_append.mp hnewer).1
  · exact h.tallies_of_mem hr

end Told

/-- The first report of a run gives neither its count nor a bucket. Every later one gives the growth
of the count since the last report, and of every bucket in order. Each of them is told by itself
whether it has dropped; in exact arithmetic the buckets exceed the count by what the buckets that
have dropped held before, less the whole count if that has dropped too. So they add up to the count
exactly if nothing has dropped, or the count has and with it every bucket that was not empty. -/
theorem restarts_are_told_bucket_by_bucket {settings : Settings}
    (hmode : settings.bucketMode = .counters) (haggregations : settings.aggregations = true)
    {labels : Labels} (hlower : ∀ tag ∈ labels.tags, tag.name ≠ "lower_bound")
    {bounds : List Float} (hfinite : ∀ bound ∈ bounds, bound.isFinite = true)
    (hincreasing : bounds.Pairwise (· < ·)) :
    (∀ {V : Type} [Amount V] {station : Station V} {episodes : List (Episode V)} {time : Nat}
        {histogram : Histogram V},
      Undisturbed settings labels bounds station (episodes ++ [.report time histogram]) →
      Told labels bounds time histogram (reported settings labels station episodes time histogram)
        (episodes.filterMap Episode.report?).getLast?) ∧
    (∀ {station : Station Rat} {episodes : List (Episode Rat)} {time before : Nat}
        {histogram previous : Histogram Rat},
      Undisturbed settings labels bounds station (episodes ++ [.report time histogram]) →
      (episodes.filterMap Episode.report?).getLast? = some (before, previous) →
      let points := reported settings labels station episodes time histogram
      let count := ((pointsAt (labels.suffixed "count") points).filterMap (·.reading.scalar?)).sum
      let buckets := ((bucketPoints labels points).filterMap (·.reading.scalar?)).sum
      buckets + ((if histogram.stats.count < previous.stats.count then previous.stats.count
          else 0 : Nat) : Rat) =
        count + (dropped previous.counts histogram.counts : Nat) ∧
      (buckets = count ↔
        (∀ e ∈ previous.counts.zip histogram.counts, e.1 ≤ e.2) ∨
          histogram.stats.count < previous.stats.count ∧
            ∀ e ∈ previous.counts.zip histogram.counts, e.1 ≤ e.2 → e.1 = 0)) := by
  have htold {V : Type} [Amount V] {station : Station V} {episodes : List (Episode V)}
      {time : Nat} {histogram : Histogram V}
      (h : Undisturbed settings labels bounds station (episodes ++ [.report time histogram])) :
      Told labels bounds time histogram (reported settings labels station episodes time histogram)
        (episodes.filterMap Episode.report?).getLast? :=
    told_of_stored hmode haggregations hlower hfinite hincreasing
      (h.stored hmode haggregations hlower hfinite hincreasing)
      (fun report hr => h.tallies_of_mem (List.mem_of_getLast? hr))
      (fun report hr => h.lt_of_mem (List.mem_of_getLast? hr)) h.tallies_last _
  refine ⟨htold, ?_⟩
  intro station episodes time before histogram previous h hr points count buckets
  have hprevious : previous.Tallies bounds := h.tallies_of_mem (List.mem_of_getLast? hr)
  have hsame := hprevious.length_counts_eq h.tallies_last
  obtain ⟨hcountPoint, -, hbucketPoints⟩ :
      Told labels bounds time histogram points (some (before, previous)) := hr ▸ htold h
  have hcount : count = growth (previous.stats.count : Rat) (histogram.stats.count : Rat) := by
    show ((pointsAt (labels.suffixed "count") points).filterMap _).sum = _
    rw [hcountPoint]
    exact add_zero _
  have hbuckets : buckets = (growths previous.counts histogram.counts).sum := by
    show ((bucketPoints labels points).filterMap _).sum = _
    rw [hbucketPoints]
    refine congrArg List.sum (scalars_bucketPoint ?_)
    rw [length_growths hsame, length_bucketEdges, h.tallies_last.length_eq]
  rw [hcount, hbuckets, ← hprevious.sum_eq, ← h.tallies_last.sum_eq]
  refine ⟨?_, sum_growths_eq_iff hsame⟩
  have hsum := sum_growths_add hsame
  rcases Nat.lt_or_ge histogram.counts.sum previous.counts.sum with hlt | hle
  · rw [if_pos hlt, growth_of_lt hlt]
    exact hsum
  · rw [if_neg (Nat.not_lt.mpr hle), growth_of_le hle, Nat.cast_zero]
    linarith

/-- Settings that report statistics and count buckets. -/
def counting : Settings :=
  { Settings.default with bucketMode := .counters, aggregations := true }

/-- A histogram with two buckets. -/
def twoBuckets (low high : Nat) : Histogram Rat :=
  ⟨⟨low + high, none, none, none⟩, [1], [low, high]⟩

/-- Two reports, and a sweep after a while. -/
def twoReports (low high : Nat) : List (Episode Rat) :=
  [.report 1 (twoBuckets 2 1), .report 2 (twoBuckets low high), .meanwhile (.advance 10),
    .meanwhile .sweep]

def latency : Labels := ⟨"latency", ∅, none, none⟩

theorem tallies_twoBuckets (low high : Nat) : (twoBuckets low high).Tallies [1] :=
  ⟨rfl, rfl, congrArg (low + ·) (Nat.add_zero high), rfl⟩

theorem undisturbed_twoReports {low high : Nat} {station : Station Rat}
    (hunknown : ∀ counter ∈ counters latency [1], station.tracker.knows counter.series = false)
    (hretained : ∀ counter ∈ counters latency [1], station.Retains counter.series
      ((twoReports low high ++ [Episode.report 3 (twoBuckets 1 2)]).map
        (Episode.action counting latency))) :
    Undisturbed counting latency [1] station
      (twoReports low high ++ [.report 3 (twoBuckets 1 2)]) := by
  refine ⟨hunknown, hretained, ?_, ?_, ?_⟩
  · intro action ha counter _
    simp only [twoReports, List.mem_append, List.mem_cons, List.not_mem_nil, or_false] at ha
    rcases ha with (ha | ha | ha | ha) | ha <;> cases ha <;> rfl
  · show [1, 2, 3].Pairwise (· < ·)
    decide
  · intro report hr
    have hr : report ∈ [(1, twoBuckets 2 1), (2, twoBuckets low high), (3, twoBuckets 1 2)] := hr
    simp only [List.mem_cons, List.not_mem_nil, or_false] at hr
    rcases hr with rfl | rfl | rfl <;> exact tallies_twoBuckets _ _

theorem restart_of_two_buckets :
    let points := reported counting latency (.new 60 30) (twoReports 5 0) 3 (twoBuckets 1 2)
    ((bucketPoints latency points).filterMap (·.reading.scalar?)).sum =
      ((pointsAt (latency.suffixed "count") points).filterMap (·.reading.scalar?)).sum := by
  intro points
  have hundisturbed : Undisturbed counting latency [1] (.new 60 30)
      (twoReports 5 0 ++ [.report 3 (twoBuckets 1 2)]) :=
    undisturbed_twoReports (by decide +kernel) (by decide +kernel)
  have h := (restarts_are_told_bucket_by_bucket rfl rfl (fun tag ht => absurd ht List.not_mem_nil)
    (by decide +kernel) (List.pairwise_singleton _ _)).2 hundisturbed rfl
  exact h.2.mpr (.inr (by decide))

/-- The count has dropped and so has the first bucket. The second one has grown by one. -/
theorem restart_of_one_bucket :
    let points := reported counting latency (.new 60 30) (twoReports 5 1) 3 (twoBuckets 1 2)
    Undisturbed counting latency [1] (.new 60 30)
        (twoReports 5 1 ++ [.report 3 (twoBuckets 1 2)]) ∧
      (pointsAt (latency.suffixed "count") points).filterMap (·.reading.scalar?) = [3] ∧
      (bucketPoints latency points).filterMap (·.reading.scalar?) = [1, 1] ∧
      ((bucketPoints latency points).filterMap (·.reading.scalar?)).sum ≠
        ((pointsAt (latency.suffixed "count") points).filterMap (·.reading.scalar?)).sum := by
  intro points
  have hcount :
      (pointsAt (latency.suffixed "count") points).filterMap (·.reading.scalar?) = [3] := by
    decide +kernel
  have hbuckets : (bucketPoints latency points).filterMap (·.reading.scalar?) = [1, 1] := by
    decide +kernel
  refine ⟨undisturbed_twoReports (by decide +kernel) (by decide +kernel), hcount, hbuckets, ?_⟩
  rw [hcount, hbuckets]
  decide +kernel

end Histogram

end MetricPoints
