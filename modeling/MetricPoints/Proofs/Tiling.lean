import MetricPoints.Proofs.Orthogonal
import MetricPoints.Proofs.Restarts
import MetricPoints.Proofs.Shares

/-
  The buckets of a histogram tile the line and stay apart. Bucket `i` goes from `lowerBound i` to
  `upperBound i`, and the plan for a histogram with one bucket more than bounds is the plan for its
  statistics followed by one step for each bucket, in order (`plan_of_laidOut`). A statistic never
  has the name of a bucket (`Stats.avoids_buckets`), and buckets of distinct series do not see each
  other, so that each bucket is observed as if it was the only one (`run_plan_cumulative`).

  Main statement: `Histogram.buckets_tile_the_line`.
-/

namespace MetricPoints

variable {V : Type}

namespace Histogram

/-! ## Bounds by the number of the bucket -/

/-- The text of the lower bound of a bucket. -/
def lowerBound (bounds : List Float) : Fin (bounds.length + 1) → String
  | ⟨0, _⟩ => "-inf"
  | ⟨i + 1, h⟩ => Decimal.text (bounds.get ⟨i, Nat.lt_of_succ_lt_succ h⟩)

/-- The text of the upper bound of a bucket. -/
def upperBound (bounds : List Float) (i : Fin (bounds.length + 1)) : String :=
  if h : i < bounds.length then Decimal.text (bounds.get ⟨i, h⟩) else "inf"

/-- The labels of a bucket. -/
def labelsAt (labels : Labels) (bounds : List Float) (i : Fin (bounds.length + 1)) : Labels :=
  bucketLabels labels (lowerBound bounds i, upperBound bounds i)

theorem upperBound_last (bounds : List Float) : upperBound bounds (.last _) = "inf" :=
  dif_neg (Nat.lt_irrefl _)

/-- Where a bucket ends, the next one starts. -/
theorem upperBound_castSucc (bounds : List Float) (i : Fin bounds.length) :
    upperBound bounds i.castSucc = lowerBound bounds i.succ :=
  dif_pos i.isLt

theorem bucketEdges_eq_ofFn (bounds : List Float) :
    bucketEdges bounds = List.ofFn fun i => (lowerBound bounds i, upperBound bounds i) := by
  refine List.ext_getElem (by rw [length_bucketEdges, List.length_ofFn]) fun i hi hi' => ?_
  have hlt : i < bounds.length + 1 := length_bucketEdges bounds ▸ hi
  rw [List.getElem_ofFn]
  simp only [bucketEdges, edges, List.getElem_zip]
  congr 1
  · cases i with
    | zero => rfl
    | succ i =>
      rw [List.getElem_append_left (by simpa using hlt)]
      simp [lowerBound]
  · simp only [List.cons_append, List.tail_cons, List.getElem_append, List.length_map,
      List.getElem_map, List.getElem_singleton]
    rfl

theorem mem_tags_labelsAt {labels : Labels} {bounds : List Float} {i : Fin (bounds.length + 1)}
    {tag : Tag} :
    tag ∈ (labelsAt labels bounds i).tags ↔ tag ∈ labels.tags ∨
      tag = .pair "lower_bound" (lowerBound bounds i) ∨
      tag = .pair "upper_bound" (upperBound bounds i) := by
  rw [labelsAt, bucketLabels, Labels.mem_tags_tagged, List.mem_cons, List.mem_singleton]
  rfl

/-- Buckets between finite bounds that increase are of distinct series. -/
theorem series_labelsAt_injective {labels : Labels} {bounds : List Float}
    (hlower : ∀ tag ∈ labels.tags, tag.name ≠ "lower_bound")
    (hfinite : ∀ bound ∈ bounds, bound.isFinite = true) (hincreasing : bounds.Pairwise (· < ·)) :
    Function.Injective fun i => (labelsAt labels bounds i).series := by
  have hnodup := nodup_series_buckets hlower hfinite hincreasing
  rw [bucketEdges_eq_ofFn, List.map_ofFn] at hnodup
  exact List.nodup_ofFn.mp hnodup

/-! ## The plan by the number of the bucket -/

/-- Says whether there is one bucket more than bounds. -/
def LaidOut (histogram : Histogram V) : Prop :=
  histogram.counts.length = histogram.bounds.length + 1

/-- The count of a bucket. -/
def countAt (histogram : Histogram V) (h : histogram.LaidOut)
    (i : Fin (histogram.bounds.length + 1)) : Nat :=
  histogram.counts.get (i.cast h.symm)

theorem zip_bucketEdges_counts (histogram : Histogram V) (h : histogram.LaidOut) :
    (bucketEdges histogram.bounds).zip histogram.counts = List.ofFn fun i =>
      ((lowerBound histogram.bounds i, upperBound histogram.bounds i), histogram.countAt h i) := by
  have hlength : (bucketEdges histogram.bounds).length = histogram.counts.length :=
    (length_bucketEdges _).trans h.symm
  refine List.ext_getElem ?_ fun i hi hi' => ?_
  · rw [List.length_zip, List.length_ofFn, ← hlength, Nat.min_self, length_bucketEdges]
  · rw [List.getElem_zip, List.getElem_ofFn]
    simp only [bucketEdges_eq_ofFn, List.getElem_ofFn]
    rfl

variable [Amount V]

/-- The step for a bucket. -/
def stepAt (labels : Labels) (time : Nat) (temporality : Temporality) (histogram : Histogram V)
    (h : histogram.LaidOut) (i : Fin (histogram.bounds.length + 1)) : Step V :=
  bucketStep labels time temporality
    ((lowerBound histogram.bounds i, upperBound histogram.bounds i), histogram.countAt h i)

section Plans

variable {settings : Settings} (hmode : settings.bucketMode = .counters) (labels : Labels)
  (time : Nat) (temporality : Temporality) {histogram : Histogram V}

include hmode

/-- Where buckets are laid out, they come one by one after the statistics. -/
theorem plan_of_laidOut (h : histogram.LaidOut) :
    histogram.plan settings labels time temporality =
      histogram.stats.plan settings labels time temporality ++
        List.ofFn (histogram.stepAt labels time temporality h) := by
  have hne : histogram.counts ≠ [] := by
    intro e
    rw [LaidOut, e] at h
    exact absurd h (by simp)
  have hbuckets : histogram.bucketPlan labels time temporality =
      List.ofFn (histogram.stepAt labels time temporality h) := by
    rw [bucketPlan, if_neg hne]
    refine (if_pos h).trans ?_
    rw [histogram.zip_bucketEdges_counts h, List.map_ofFn]
    rfl
  rw [plan_eq, detailPlan, hmode]
  exact congrArg (_ ++ ·) hbuckets

/-- Where they are not, there are no steps but remarks. -/
theorem detailPlan_of_not_laidOut (h : ¬histogram.LaidOut) :
    ∀ step ∈ histogram.detailPlan settings labels time temporality, step.labels = [] := by
  intro step hs
  rw [detailPlan, hmode] at hs
  simp only [bucketPlan] at hs
  split at hs
  · exact absurd hs List.not_mem_nil
  · split at hs
    · contradiction
    · exact List.mem_singleton.mp hs ▸ rfl

end Plans

end Histogram

section Avoided

variable [Amount V]

/-- The steps for statistics have the labels of statistics. -/
theorem Stats.labels_of_mem_plan {settings : Settings} {labels : Labels} {time : Nat}
    {temporality : Temporality} {stats : Stats V} {step : Step V}
    (h : step ∈ stats.plan settings labels time temporality) {other : Labels}
    (ho : other ∈ step.labels) :
    ∃ statistic : Statistic, other = labels.suffixed statistic.name := by
  unfold Stats.plan at h
  split at h
  · rcases List.mem_append.mp h with h | h
    · rw [(labels_of_mem_remarks h).1] at ho
      exact absurd ho List.not_mem_nil
    · cases temporality with
      | delta =>
        obtain ⟨⟨statistic, value⟩, -, rfl⟩ := List.mem_map.mp h
        exact ⟨statistic, List.mem_singleton.mp ho⟩
      | cumulative =>
        rw [List.mem_singleton.mp h] at ho
        obtain ⟨statistic, -, rfl⟩ := List.mem_map.mp ho
        exact ⟨statistic, rfl⟩
  · exact absurd h List.not_mem_nil

theorem Stats.avoids_buckets (settings : Settings) (labels : Labels) (time : Nat)
    (temporality : Temporality) (stats : Stats V) :
    (stats.plan settings labels time temporality).Avoids [(labels.suffixed "bucket").name] := by
  intro step hs other ho hn
  obtain ⟨statistic, rfl⟩ := labels_of_mem_plan hs ho
  exact statistic.name_ne_bucket (Labels.name_suffixed_inj (List.mem_singleton.mp hn))

namespace Plan.Avoids

variable {plan : Plan V} {labels : Labels} (h : plan.Avoids [(labels.suffixed "bucket").name])
  (now : Nat) (tracker : Tracker V)

include h

theorem bucketPoints_run : bucketPoints labels (run now plan tracker).1.points = [] := by
  rw [bucketPoints, List.filter_eq_nil_iff]
  exact fun point hp => by simpa using h.not_mem_names now tracker hp

theorem get?_run {series : Series} (hs : series.name = (labels.suffixed "bucket").name) :
    (run now plan tracker).2.entries.get? series = tracker.entries.get? series := by
  rw [tracker_run]
  refine Tracker.get?_observeAll_of_not_sampled tracker now fun sample hm e => ?_
  obtain ⟨step, hstep, hm⟩ := List.mem_flatMap.mp hm
  have hname : sample.labels.name = (labels.suffixed "bucket").name :=
    (congrArg Series.name e).trans hs
  exact h step hstep _ (Step.labels_of_mem_samples hm) (List.mem_singleton.mpr hname)

end Plan.Avoids

/-- Where buckets are not laid out, no step has the name of a bucket. -/
theorem Histogram.avoids_buckets {settings : Settings} (hmode : settings.bucketMode = .counters)
    (labels : Labels) (time : Nat) (temporality : Temporality) {histogram : Histogram V}
    (h : ¬histogram.LaidOut) :
    (histogram.plan settings labels time temporality).Avoids [(labels.suffixed "bucket").name] := by
  intro step hs other ho
  rcases List.mem_append.mp hs with hs | hs
  · exact histogram.stats.avoids_buckets settings labels time temporality step hs other ho
  · rw [detailPlan_of_not_laidOut hmode labels time temporality h step hs] at ho
    exact absurd ho List.not_mem_nil

end Avoided

/-! ## Buckets apart -/

section Apart

variable [Amount V] (now : Nat) (tracker : Tracker V)

/-- Where the samples of a plan are of distinct series, each of them leaves its series as its step
does alone. -/
theorem Plan.get?_run_of_nodup {plan : Plan V} (h : (plan.samples.map Sample.series).Nodup)
    {step : Step V} (hs : step ∈ plan) {sample : Sample V} (hm : sample ∈ step.samples) :
    (run now plan tracker).2.entries.get? sample.series =
      (step.run now tracker).2.entries.get? sample.series := by
  have hmem : sample ∈ plan.samples := List.mem_flatMap.mpr ⟨step, hs, hm⟩
  have halone := Tracker.get?_observeAll_of_nodup tracker now step.nodup_series_samples hm
  rw [tracker_run, Tracker.get?_observeAll_of_nodup tracker now h hmem, Step.run, halone]

/-- A step of each number that gives one thing each. -/
theorem flatMap_ofFn_of_eq_singleton {α β : Type} {n : Nat} {f : Fin n → α} {g : α → List β}
    {e : Fin n → β} (h : ∀ i, g (f i) = [e i]) : (List.ofFn f).flatMap g = List.ofFn e := by
  rw [List.ofFn_eq_map, List.ofFn_eq_map, List.flatMap_map, funext h, ← List.map_eq_flatMap]

namespace Histogram

variable {settings : Settings} (hmode : settings.bucketMode = .counters) {labels : Labels}
  {time : Nat} {histogram : Histogram V} (h : histogram.LaidOut)

omit [Amount V] in
theorem name_labelsAt {bounds : List Float} (i : Fin (bounds.length + 1)) :
    (labelsAt labels bounds i).name = (labels.suffixed "bucket").name := rfl

theorem labels_steps (temporality : Temporality) :
    Plan.labels (List.ofFn (histogram.stepAt labels time temporality h)) =
      List.ofFn (labelsAt labels histogram.bounds) :=
  flatMap_ofFn_of_eq_singleton fun _ => by cases temporality <;> rfl

/-- The sample of a bucket. -/
def sampleAt (labels : Labels) (time : Nat) (histogram : Histogram V) (h : histogram.LaidOut)
    (i : Fin (histogram.bounds.length + 1)) : Sample V :=
  ⟨labelsAt labels histogram.bounds i, time, Amount.ofNat (histogram.countAt h i)⟩

theorem samples_steps :
    Plan.samples (List.ofFn (histogram.stepAt labels time .cumulative h)) =
      List.ofFn (histogram.sampleAt labels time h) :=
  flatMap_ofFn_of_eq_singleton fun _ => rfl

include hmode in
/-- The points of the buckets are those that their steps give after the statistics. -/
theorem bucketPoints_run_of_laidOut (temporality : Temporality) :
    bucketPoints labels
        (Plan.run now (histogram.plan settings labels time temporality) tracker).1.points =
      (Plan.run now (List.ofFn (histogram.stepAt labels time temporality h))
        (Plan.run now (histogram.stats.plan settings labels time temporality) tracker).2).1.points
        := by
  have hstats := (histogram.stats.avoids_buckets settings labels time temporality).bucketPoints_run
    now tracker
  rw [plan_of_laidOut hmode labels time temporality h, Plan.run_append, Outcome.points_append,
    bucketPoints, List.filter_append]
  refine (congrArg (· ++ _) hstats).trans (List.filter_eq_self.mpr fun point hp => ?_)
  have hlabels := (Plan.sublist_labels now _ _).subset (List.mem_map_of_mem hp)
  rw [labels_steps, List.mem_ofFn] at hlabels
  obtain ⟨i, hi⟩ := hlabels
  have hname : point.labels.name = (labels.suffixed "bucket").name :=
    (congrArg Labels.name hi.symm).trans (name_labelsAt i)
  exact decide_eq_true hname

/-- Steps that emit points give them. -/
theorem points_steps_delta :
    (Plan.run now (List.ofFn (histogram.stepAt labels time .delta h)) tracker).1.points =
      List.ofFn fun i => .at time (labelsAt labels histogram.bounds i)
        (.count (Amount.ofNat (histogram.countAt h i))) := by
  let point (i : Fin (histogram.bounds.length + 1)) : Point V :=
    .at time (labelsAt labels histogram.bounds i) (.count (Amount.ofNat (histogram.countAt h i)))
  have hsteps :
      List.ofFn (histogram.stepAt labels time .delta h) = (List.ofFn point).map .emit := by
    rw [List.map_ofFn]
    rfl
  rw [hsteps, Plan.outcome_run_emit]

section Distinct

variable (hdistinct : Function.Injective fun i => (labelsAt labels histogram.bounds i).series)

include hdistinct

theorem nodup_series_steps :
    ((Plan.samples (List.ofFn (histogram.stepAt labels time .cumulative h))).map
      Sample.series).Nodup := by
  rw [samples_steps, List.map_ofFn]
  exact List.nodup_ofFn.mpr hdistinct

/-- Buckets of distinct series yield what each of them yields alone. -/
theorem outcome_steps :
    (Plan.run now (List.ofFn (histogram.stepAt labels time .cumulative h)) tracker).1 =
      Outcome.join (List.ofFn fun i =>
        ((histogram.stepAt labels time .cumulative h i).run now tracker).1) := by
  rw [Plan.outcome_run_of_nodup now (nodup_series_steps h hdistinct), List.map_ofFn]
  exact congrArg (fun outcomes => Outcome.join (List.ofFn outcomes))
    (funext fun i => (Step.fst_run _ now tracker).symm)

theorem get?_steps (i : Fin (histogram.bounds.length + 1)) :
    (Plan.run now (List.ofFn (histogram.stepAt labels time .cumulative h)) tracker).2.entries.get?
        (labelsAt labels histogram.bounds i).series =
      ((histogram.stepAt labels time .cumulative h i).run now tracker).2.entries.get?
        (labelsAt labels histogram.bounds i).series := by
  have hsample : histogram.sampleAt labels time h i ∈
      (histogram.stepAt labels time .cumulative h i).samples := List.mem_singleton_self _
  exact Plan.get?_run_of_nodup now tracker (nodup_series_steps h hdistinct)
    (List.mem_ofFn.mpr ⟨i, rfl⟩) hsample

end Distinct

variable {other : Tracker V} {i : Fin (histogram.bounds.length + 1)}
  (hsame : tracker.entries.get? (labelsAt labels histogram.bounds i).series =
    other.entries.get? (labelsAt labels histogram.bounds i).series)

include hsame

/-- The step of a bucket only looks at the entry of its series. -/
theorem fst_run_stepAt_congr :
    ((histogram.stepAt labels time .cumulative h i).run now tracker).1 =
      ((histogram.stepAt labels time .cumulative h i).run now other).1 := by
  rw [Step.fst_run, Step.fst_run]
  refine Step.outcomeFrom_congr fun sample hm => ?_
  rw [List.mem_singleton.mp hm]
  exact hsame

theorem get?_run_stepAt_congr :
    ((histogram.stepAt labels time .cumulative h i).run now tracker).2.entries.get?
        (labelsAt labels histogram.bounds i).series =
      ((histogram.stepAt labels time .cumulative h i).run now other).2.entries.get?
        (labelsAt labels histogram.bounds i).series := by
  rw [Step.run, Step.run, Tracker.get?_observeAll, Tracker.get?_observeAll, hsame]

omit hsame

include hmode in
/-- Running totals of buckets of distinct series yield what each of them yields alone, from the
state before the report. -/
theorem run_plan_cumulative
    (hdistinct : Function.Injective fun i => (labelsAt labels histogram.bounds i).series) :
    let stats := histogram.stats.plan settings labels time .cumulative
    let run := Plan.run now (histogram.plan settings labels time .cumulative) tracker
    run.1 = (Plan.run now stats tracker).1 ++ Outcome.join (List.ofFn fun i =>
        ((histogram.stepAt labels time .cumulative h i).run now tracker).1) ∧
      ∀ i, run.2.entries.get? (labelsAt labels histogram.bounds i).series =
        ((histogram.stepAt labels time .cumulative h i).run now tracker).2.entries.get?
          (labelsAt labels histogram.bounds i).series := by
  intro stats run
  -- the statistics come first, and leave the series of the buckets alone
  have hsame (i : Fin (histogram.bounds.length + 1)) :
      (Plan.run now stats tracker).2.entries.get? (labelsAt labels histogram.bounds i).series =
        tracker.entries.get? (labelsAt labels histogram.bounds i).series :=
    (histogram.stats.avoids_buckets settings labels time .cumulative).get?_run now tracker
      (name_labelsAt i)
  have hrun : run = _ :=
    (congrArg (Plan.run now · tracker) (plan_of_laidOut hmode labels time .cumulative h)).trans
      (Plan.run_append now stats _ tracker)
  rw [hrun]
  refine ⟨?_, fun i => ?_⟩
  · rw [outcome_steps now _ h hdistinct]
    exact congrArg (fun alone => _ ++ Outcome.join (List.ofFn alone))
      (funext fun i => fst_run_stepAt_congr now _ h (hsame i))
  · exact (get?_steps now _ h hdistinct i).trans (get?_run_stepAt_congr now _ h (hsame i))

end Histogram

end Apart

namespace Histogram

variable [Amount V]

/-- A histogram whose buckets are reported one by one: buckets that do not fit the bounds give no
points and leave no trace. Else there is a bucket for each of the intervals into which the bounds
cut the line, in order, and each interval starts where the one before it ends; increments are
reported bucket by bucket as they are. Where the bounds are finite and increase, the buckets are of
distinct series, and running totals are observed as if each bucket was the only one. -/
theorem buckets_tile_the_line {settings : Settings} (hmode : settings.bucketMode = .counters)
    (labels : Labels) (time now : Nat) (temporality : Temporality) (histogram : Histogram V)
    (tracker : Tracker V) :
    let plan := histogram.plan settings labels time temporality
    let run := Plan.run now plan tracker
    (¬histogram.LaidOut → bucketPoints labels run.1.points = [] ∧
      ∀ series : Series, series.name = (labels.suffixed "bucket").name →
        run.2.entries.get? series = tracker.entries.get? series) ∧
    ∀ h : histogram.LaidOut,
      let bounds := histogram.bounds
      let stats := histogram.stats.plan settings labels time temporality
      plan = stats ++ List.ofFn (histogram.stepAt labels time temporality h) ∧
      lowerBound bounds 0 = "-inf" ∧ upperBound bounds (.last _) = "inf" ∧
      (∀ i : Fin bounds.length, upperBound bounds i.castSucc = lowerBound bounds i.succ) ∧
      (∀ i tag, tag ∈ (labelsAt labels bounds i).tags ↔ tag ∈ labels.tags ∨
        tag = .pair "lower_bound" (lowerBound bounds i) ∨
        tag = .pair "upper_bound" (upperBound bounds i)) ∧
      ((bucketPoints labels run.1.points).map Point.labels).Sublist
        (List.ofFn (labelsAt labels bounds)) ∧
      (temporality = .delta → bucketPoints labels run.1.points = List.ofFn fun i =>
        .at time (labelsAt labels bounds i) (.count (Amount.ofNat (histogram.countAt h i)))) ∧
      ((∀ tag ∈ labels.tags, tag.name ≠ "lower_bound") →
        (∀ bound ∈ bounds, bound.isFinite = true) → bounds.Pairwise (· < ·) →
        (Function.Injective fun i => (labelsAt labels bounds i).series) ∧
        (temporality = .cumulative →
          run.1 = (Plan.run now stats tracker).1 ++ Outcome.join (List.ofFn fun i =>
            ((histogram.stepAt labels time .cumulative h i).run now tracker).1) ∧
          ∀ i, run.2.entries.get? (labelsAt labels bounds i).series =
            ((histogram.stepAt labels time .cumulative h i).run now tracker).2.entries.get?
              (labelsAt labels bounds i).series)) := by
  intro plan run
  refine ⟨fun h => ?_, fun h => ?_⟩
  · have havoids : plan.Avoids _ := avoids_buckets hmode labels time temporality h
    exact ⟨havoids.bucketPoints_run now tracker, fun _ => havoids.get?_run now tracker⟩
  · intro bounds stats
    have hpoints : bucketPoints labels run.1.points = _ :=
      bucketPoints_run_of_laidOut now tracker hmode h temporality
    refine ⟨plan_of_laidOut hmode labels time temporality h, rfl, upperBound_last bounds,
      upperBound_castSucc bounds, fun _ _ => mem_tags_labelsAt, ?_, ?_,
      fun hlower hfinite hincreasing => ?_⟩
    · have hlabels : Plan.labels (List.ofFn (histogram.stepAt labels time temporality h)) =
          List.ofFn (labelsAt labels bounds) := labels_steps h temporality
      rw [hpoints, ← hlabels]
      exact Plan.sublist_labels now _ _
    · rintro rfl
      rw [hpoints, points_steps_delta]
    · have hdistinct : Function.Injective fun i => (labelsAt labels bounds i).series :=
        series_labelsAt_injective hlower hfinite hincreasing
      refine ⟨hdistinct, ?_⟩
      rintro rfl
      exact run_plan_cumulative now tracker hmode h hdistinct

/-- A report with the bounds 0 and 10. -/
def threeBuckets (low middle high : Nat) : Histogram Rat :=
  ⟨⟨low + middle + high, none, none, none⟩, [0, 10], [low, middle, high]⟩

/-- The last bucket was reported later already, with the bound 10 alone. -/
theorem buckets_of_two_bounds :
    let settings := { Settings.default with bucketMode := .counters }
    let labels : Labels := ⟨"latency", .ofList [.pair "env" "test"], none, none⟩
    let first :=
      (Plan.run 0 ((threeBuckets 1 3 1).plan settings labels 1 .cumulative) (.empty 60)).2
    let tracker := (Plan.run 0
      (plan settings labels 9 .cumulative ⟨⟨6, none, none, none⟩, [10], [4, 2]⟩) first).2
    let histogram := threeBuckets 2 3 4
    let run := Plan.run 0 (histogram.plan settings labels 5 .cumulative) tracker
    (Function.Injective fun i => (labelsAt labels histogram.bounds i).series) ∧
      (∀ i, run.2.entries.get? (labelsAt labels histogram.bounds i).series =
        ((histogram.stepAt labels 5 .cumulative rfl i).run 0 tracker).2.entries.get?
          (labelsAt labels histogram.bounds i).series) ∧
      run.1.points.map Point.reading = [.count 1, .count 0] ∧ run.1.late = 1 := by
  intro settings labels first tracker histogram run
  have hmode : settings.bucketMode = .counters := rfl
  have htiled := (buckets_tile_the_line hmode labels 5 0 .cumulative histogram tracker).2 rfl
  obtain ⟨-, -, -, -, -, -, -, hdistinct⟩ := htiled
  obtain ⟨hinjective, hcumulative⟩ :=
    hdistinct (by decide +kernel) (by decide +kernel) (by decide +kernel)
  exact ⟨hinjective, (hcumulative rfl).2, by decide +kernel, by decide +kernel⟩

end Histogram

end MetricPoints
