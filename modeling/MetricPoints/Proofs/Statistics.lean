import MetricPoints.Plan.Histogram
import MetricPoints.Proofs.Alike

/-
  Statistics of cumulative histograms. Count, sum and extrema are series of their own
  (`nodup_series_samples`), so each meets the tracker as it stands before the data point, and what
  is reported can be read off their changes (`points_outcomeFrom`). An increase of the count is
  reported unless the data point has a sum that is not an increase (`pointsAt_count`): the sum is
  then a baseline, or late, and the whole data point is passed over. Whatever else is planned for
  the data point has names of its own (`name_ne_of_mem_detailPlan`) and plays no part in it.
-/

namespace MetricPoints

variable {V : Type}

theorem Labels.name_suffixed_inj {labels : Labels} {a b : String}
    (h : (labels.suffixed a).name = (labels.suffixed b).name) : a = b :=
  (String.append_right_inj (labels.name ++ ".")).mp h

theorem Labels.series_suffixed_ne (labels : Labels) {a b : String} (h : a ≠ b) :
    (labels.suffixed a).series ≠ (labels.suffixed b).series :=
  fun e => h (name_suffixed_inj (series_eq_iff.mp e).1)

theorem Labels.name_ne_suffixed (labels : Labels) (word : String) :
    labels.name ≠ (labels.suffixed word).name := by
  intro e
  have := congrArg String.length e
  simp only [suffixed, String.length_append] at this
  have hdot : ".".length = 1 := by decide
  omega

theorem Statistic.name_injective {s t : Statistic} (h : s.name = t.name) : s = t := by
  revert h
  cases s <;> cases t <;> decide

theorem Statistic.dot_not_mem_name (statistic : Statistic) : '.' ∉ statistic.name.toList := by
  cases statistic <;> decide

theorem Statistic.name_ne_bucket (statistic : Statistic) : statistic.name ≠ "bucket" := by
  cases statistic <;> decide

/-- The points with these labels. -/
def pointsAt (labels : Labels) (points : List (Point V)) : List (Point V) :=
  points.filter (·.labels = labels)

theorem pointsAt_append (labels : Labels) (xs ys : List (Point V)) :
    pointsAt labels (xs ++ ys) = pointsAt labels xs ++ pointsAt labels ys :=
  List.filter_append ..

theorem pointsAt_eq_nil {labels : Labels} {points : List (Point V)}
    (h : ∀ point ∈ points, point.labels ≠ labels) : pointsAt labels points = [] := by
  rw [pointsAt, List.filter_eq_nil_iff]
  exact fun point hp => by simpa using h point hp

namespace Aggregates

/-- The value of a statistic, if it is reported. -/
def value? (a : Aggregates V) : Statistic → Option V
  | .count => some a.count
  | .sum => a.sum
  | .min => a.min
  | .max => a.max

/-- The sample of a statistic with a value. -/
def sampleOf (a : Aggregates V) (statistic : Statistic) (value : V) : Sample V :=
  ⟨a.labelsOf statistic, a.time, value⟩

/-- What a statistic means to a tracker, if it is reported. -/
def change? (a : Aggregates V) (tracker : Tracker V) (statistic : Statistic) :
    Option (Change V) :=
  (a.value? statistic).map fun value => tracker.changeFor (a.sampleOf statistic value)

theorem mem_values {a : Aggregates V} {statistic : Statistic} {value : V} :
    (statistic, value) ∈ a.values ↔ a.value? statistic = some value := by
  obtain ⟨labels, time, count, sum, min, max⟩ := a
  cases statistic <;> simp [values, value?, eq_comm]

theorem mem_samples {a : Aggregates V} {sample : Sample V} :
    sample ∈ a.samples ↔
      ∃ statistic value, a.value? statistic = some value ∧ sample = a.sampleOf statistic value := by
  refine ⟨?_, ?_⟩
  · intro h
    obtain ⟨⟨statistic, value⟩, he, rfl⟩ := List.mem_map.mp h
    exact ⟨statistic, value, mem_values.mp he, rfl⟩
  · rintro ⟨statistic, value, hv, rfl⟩
    exact List.mem_map.mpr ⟨(statistic, value), mem_values.mpr hv, rfl⟩

theorem series_labelsOf_ne (a : Aggregates V) {s t : Statistic} (h : s ≠ t) :
    (a.labelsOf s).series ≠ (a.labelsOf t).series :=
  a.labels.series_suffixed_ne fun e => h (Statistic.name_injective e)

/-- The statistics of a data point are of distinct series. -/
theorem nodup_series_samples (a : Aggregates V) : (a.samples.map Sample.series).Nodup := by
  have hd : (a.values.map Prod.fst).Nodup := by
    obtain ⟨labels, time, count, sum, min, max⟩ := a
    cases sum <;> cases min <;> cases max <;> simp [values]
  have hm : a.samples.map Sample.series =
      (a.values.map Prod.fst).map fun s => (a.labelsOf s).series := by
    rw [samples, List.map_map, List.map_map]
    rfl
  rw [hm]
  exact List.Pairwise.map _ (fun _ _ => a.series_labelsOf_ne) hd

/-- The change of a statistic among the changes of all. -/
theorem lookup_changes (a : Aggregates V) (tracker : Tracker V) (statistic : Statistic) :
    ((a.values.map Prod.fst).zip (a.samples.map tracker.changeFor)).lookup statistic =
      a.change? tracker statistic := by
  obtain ⟨labels, time, count, sum, min, max⟩ := a
  cases sum <;> cases min <;> cases max <;> cases statistic <;> rfl

theorem change?_eq (a : Aggregates V) (tracker : Tracker V) (statistic : Statistic) :
    a.change? tracker statistic =
      (a.value? statistic).map fun value =>
        match tracker.stored? (a.labelsOf statistic).series with
        | none => .baseline
        | some held =>
          if a.time ≤ held.time then .late else .step held.value value (a.time - held.time) := by
  unfold change?
  congr 1
  funext value
  exact Tracker.changeFor_eq tracker (a.sampleOf statistic value)

variable [Amount V]

/-- The increase of a statistic, if it is reported and has one. -/
def increase? (a : Aggregates V) (tracker : Tracker V) (statistic : Statistic) : Option V :=
  (a.change? tracker statistic).bind Change.increase?

/-- A statistic has an increase exactly if it is newer than what is stored. -/
theorem isSome_increase? (a : Aggregates V) (tracker : Tracker V) (statistic : Statistic) :
    (a.increase? tracker statistic).isSome =
      ((a.value? statistic).isSome &&
        (tracker.stored? (a.labelsOf statistic).series).any (·.time < a.time)) := by
  rw [increase?, change?_eq]
  cases a.value? statistic with
  | none => rfl
  | some value =>
    cases tracker.stored? (a.labelsOf statistic).series with
    | none => rfl
    | some held =>
      by_cases h : a.time ≤ held.time
      · simp [h, Change.increase?]
      · simp [h, Change.increase?, Nat.lt_of_not_le h]

/-- Says whether the count has increased, and the sum with it if there is one. -/
def complete (a : Aggregates V) (tracker : Tracker V) : Bool :=
  (a.increase? tracker .count).isSome &&
    (a.sum.isNone || (a.increase? tracker .sum).isSome)

/-- The points of the statistics from their changes. -/
theorem points_outcomeFrom (a : Aggregates V) (tracker : Tracker V) :
    (Step.outcomeFrom tracker (.aggregate a)).points =
      if a.complete tracker then
        (a.increase? tracker .count).toList.map (a.point .count)
          ++ (a.increase? tracker .sum).toList.map (a.point .sum)
          ++ (a.min.filter fun _ => (a.change? tracker .min).any Change.moved).toList.map
              (a.point .min)
          ++ (a.max.filter fun _ => (a.change? tracker .max).any Change.moved).toList.map
              (a.point .max)
      else [] := by
  simp only [Step.outcomeFrom, Step.outcome, Step.samples, outcome, lookup_changes, complete,
    increase?]
  rfl

omit [Amount V] in
theorem pointsAt_map_point (a : Aggregates V) (s t : Statistic) (value? : Option V) :
    pointsAt (a.labelsOf s) (value?.toList.map (a.point t)) =
      if s = t then value?.toList.map (a.point t) else [] := by
  by_cases h : s = t
  · rw [if_pos h, h]
    refine List.filter_eq_self.mpr fun point hp => ?_
    obtain ⟨value, -, rfl⟩ := List.mem_map.mp hp
    exact decide_eq_true rfl
  · rw [if_neg h]
    refine pointsAt_eq_nil fun point hp => ?_
    obtain ⟨value, -, rfl⟩ := List.mem_map.mp hp
    intro e
    have hn := Labels.name_suffixed_inj (congrArg Labels.name e)
    exact h (Statistic.name_injective hn.symm)

/-- The increase of the count is reported exactly if the sum has one too or is not there. -/
theorem pointsAt_count (a : Aggregates V) (tracker : Tracker V) :
    pointsAt (a.labelsOf .count) (Step.outcomeFrom tracker (.aggregate a)).points =
      if a.sum.isNone || (a.increase? tracker .sum).isSome then
        (a.increase? tracker .count).toList.map (a.point .count)
      else [] := by
  rw [points_outcomeFrom, complete]
  cases a.increase? tracker .count with
  | none => simp [pointsAt]
  | some d =>
    rw [Option.isSome_some, Bool.true_and]
    split
    · simp only [pointsAt_append, pointsAt_map_point, if_true, reduceCtorEq, if_false,
        List.append_nil]
    · rfl

/-- The increase of the sum is reported exactly if the count has one too. -/
theorem pointsAt_sum (a : Aggregates V) (tracker : Tracker V) :
    pointsAt (a.labelsOf .sum) (Step.outcomeFrom tracker (.aggregate a)).points =
      if (a.increase? tracker .count).isSome then
        (a.increase? tracker .sum).toList.map (a.point .sum)
      else [] := by
  rw [points_outcomeFrom, complete]
  cases a.increase? tracker .count with
  | none => rfl
  | some d =>
    rw [Option.isSome_some, Bool.true_and, if_pos rfl]
    split
    · simp only [pointsAt_append, pointsAt_map_point, if_true, reduceCtorEq, if_false,
        List.nil_append, List.append_nil]
    · rename_i h
      rw [Bool.or_eq_true, not_or, Option.not_isSome_iff_eq_none] at h
      simp [h.2, pointsAt]

end Aggregates

/-- The samples of a step are of distinct series. -/
theorem Step.nodup_series_samples (step : Step V) : (step.samples.map Sample.series).Nodup := by
  cases step with
  | emit | note => exact .nil
  | track role sample => exact List.pairwise_singleton _ _
  | aggregate a => exact a.nodup_series_samples

/-- Each sample of a step meets the tracker as it stands before the step. -/
theorem Step.fst_run [Amount V] (step : Step V) (now : Nat) (tracker : Tracker V) :
    (step.run now tracker).1 = step.outcomeFrom tracker := by
  rw [Step.run, Step.outcomeFrom,
    Tracker.fst_observeAll_of_nodup tracker now step.nodup_series_samples]

/-- The labels that the points of a step can have. -/
def Step.labels : Step V → List Labels
  | .emit point => [point.labels]
  | .note _ => []
  | .track _ sample => [sample.labels]
  | .aggregate a => [Statistic.count, .sum, .min, .max].map a.labelsOf

/-- The labels that the points of a plan can have, in order. -/
def Plan.labels (plan : Plan V) : List Labels := plan.flatMap Step.labels

section Points

variable [Amount V]

/-- A step gives points with its labels, in order, some of them left out. -/
theorem Step.sublist_labels (changes : List (Change V)) (step : Step V) :
    ((step.outcome changes).points.map Point.labels).Sublist step.labels := by
  have htoList {α : Type} (o : Option α) {f : α → Point V} {labels : Labels}
      (h : ∀ x, (f x).labels = labels) : ((o.toList.map f).map Point.labels).Sublist [labels] := by
    cases o with
    | none => exact List.nil_sublist _
    | some x => exact h x ▸ .refl _
  cases step with
  | emit point => exact .refl _
  | note notice => exact .refl _
  | track role sample =>
    cases changes with
    | nil => exact List.nil_sublist _
    | cons change rest => exact htoList _ fun _ => rfl
  | aggregate a =>
    have hpoint (statistic : Statistic) (value : Option V) :
        ((value.toList.map (a.point statistic)).map Point.labels).Sublist [a.labelsOf statistic] :=
      htoList value fun _ => rfl
    simp only [outcome, Aggregates.outcome]
    split
    · simp only [List.map_append]
      exact (((hpoint .count _).append (hpoint .sum _)).append (hpoint .min _)).append
        (hpoint .max _)
    · exact List.nil_sublist _

/-- A run gives points with the labels of its plan, in order, some of them left out. -/
theorem Plan.sublist_labels (now : Nat) (plan : Plan V) (tracker : Tracker V) :
    ((run now plan tracker).1.points.map Point.labels).Sublist plan.labels := by
  induction plan generalizing tracker with
  | nil => exact .refl _
  | cons step rest ih =>
    rw [run_cons, Outcome.points_append, List.map_append]
    exact (step.sublist_labels _).append (ih _)

theorem Plan.labels_of_mem_points {now : Nat} {plan : Plan V} {tracker : Tracker V}
    {point : Point V} (h : point ∈ (run now plan tracker).1.points) :
    ∃ step ∈ plan, point.labels ∈ step.labels :=
  List.mem_flatMap.mp ((sublist_labels now plan tracker).subset (List.mem_map_of_mem h))

omit [Amount V] in
theorem Step.labels_of_mem_samples {step : Step V} {sample : Sample V}
    (h : sample ∈ step.samples) : sample.labels ∈ step.labels := by
  cases step with
  | emit | note => exact absurd h List.not_mem_nil
  | track role other =>
    rw [List.mem_singleton.mp h]
    exact List.mem_singleton_self _
  | aggregate a =>
    obtain ⟨statistic, value, -, rfl⟩ := Aggregates.mem_samples.mp h
    exact List.mem_map_of_mem (by cases statistic <;> decide)

end Points

namespace Histogram

variable [Amount V]

/-- What is planned for a histogram beside its statistics. -/
def detailPlan (settings : Settings) (labels : Labels) (time : Nat) (temporality : Temporality)
    (histogram : Histogram V) : Plan V :=
  match settings.bucketMode with
  | .omitted => []
  | .counters => histogram.bucketPlan labels time temporality
  | .distributions =>
    histogram.stats.distributionPlan labels time temporality
      (.explicit histogram.bounds histogram.counts)

theorem plan_eq (settings : Settings) (labels : Labels) (time : Nat) (temporality : Temporality)
    (histogram : Histogram V) :
    histogram.plan settings labels time temporality =
      histogram.stats.plan settings labels time temporality ++
        histogram.detailPlan settings labels time temporality := rfl

end Histogram

theorem Stats.labels_of_mem_remarks {stats : Stats V} [Amount V] {labels : Labels} {step : Step V}
    (h : step ∈ stats.remarks labels) : step.labels = [] ∧ step.samples = [] := by
  obtain ⟨remark, rfl⟩ := remark_of_mem_remarks h
  exact ⟨rfl, rfl⟩

namespace Histogram

variable [Amount V]

/-- Buckets and distributions have names of their own. -/
theorem name_ne_of_mem_detailPlan {settings : Settings} {labels : Labels} {time : Nat}
    {temporality : Temporality} {histogram : Histogram V} {step : Step V}
    (hs : step ∈ histogram.detailPlan settings labels time temporality) {other : Labels}
    (ho : other ∈ step.labels) (statistic : Statistic) :
    other.name ≠ (labels.suffixed statistic.name).name := by
  have hbucket : (labels.suffixed "bucket").name ≠ (labels.suffixed statistic.name).name := by
    intro e
    have := Labels.name_suffixed_inj e
    revert this
    cases statistic <;> decide
  unfold detailPlan at hs
  split at hs
  · exact absurd hs List.not_mem_nil
  · unfold bucketPlan at hs
    split at hs
    · exact absurd hs List.not_mem_nil
    · split at hs
      · obtain ⟨bucket, -, rfl⟩ := List.mem_map.mp hs
        have he : (bucketStep (V := V) labels time temporality bucket).labels =
            [bucketLabels labels bucket.1] := by
          cases temporality <;> rfl
        rw [he, List.mem_singleton] at ho
        subst ho
        exact hbucket
      · rw [List.mem_singleton.mp hs] at ho
        exact absurd ho List.not_mem_nil
  · rcases List.mem_append.mp hs with hs | hs
    · rw [(Stats.labels_of_mem_remarks hs).1] at ho
      exact absurd ho List.not_mem_nil
    · rw [List.mem_singleton.mp hs, Step.labels, List.mem_singleton] at ho
      subst ho
      exact other.name_ne_suffixed _

theorem series_ne_of_mem_detailPlan {settings : Settings} {labels : Labels} {time : Nat}
    {temporality : Temporality} {histogram : Histogram V} {sample : Sample V}
    (h : sample ∈ (histogram.detailPlan settings labels time temporality).samples)
    (statistic : Statistic) : sample.series ≠ (labels.suffixed statistic.name).series := by
  obtain ⟨step, hs, hm⟩ := List.mem_flatMap.mp h
  intro e
  exact name_ne_of_mem_detailPlan hs (Step.labels_of_mem_samples hm) statistic
    (Labels.series_eq_iff.mp e).1

variable {settings : Settings} (hshow : settings.showsStatistics = true) (labels : Labels)
  (time : Nat) (histogram : Histogram V) (now : Nat) (tracker : Tracker V)

include hshow

/-- The points of a statistic are those that the aggregates of the data point give. -/
theorem pointsAt_run_plan (statistic : Statistic) :
    pointsAt (labels.suffixed statistic.name)
        (Plan.run now (histogram.plan settings labels time .cumulative) tracker).1.points =
      pointsAt (labels.suffixed statistic.name)
        (Step.outcomeFrom tracker
          (.aggregate (.of settings labels time histogram.stats))).points := by
  have hremarks : (Plan.run now (histogram.stats.remarks labels) tracker).1.points = [] := by
    apply List.eq_nil_iff_forall_not_mem.mpr
    intro point hp
    obtain ⟨step, hs, hl⟩ := Plan.labels_of_mem_points hp
    rw [(Stats.labels_of_mem_remarks hs).1] at hl
    exact List.not_mem_nil hl
  have hsame : (Plan.run now (histogram.stats.remarks labels) tracker).2 = tracker := by
    refine (Plan.run_of_samples_eq_nil now ?_ tracker tracker).2
    exact List.flatMap_eq_nil_iff.mpr fun step hs => (Stats.labels_of_mem_remarks hs).2
  have hdetails (other : Tracker V) : pointsAt (labels.suffixed statistic.name)
      (Plan.run now (histogram.detailPlan settings labels time .cumulative) other).1.points =
        [] := by
    apply pointsAt_eq_nil
    intro point hp e
    obtain ⟨step, hs, hl⟩ := Plan.labels_of_mem_points hp
    exact name_ne_of_mem_detailPlan hs hl statistic (congrArg Labels.name e)
  rw [plan_eq, Plan.run_append, Outcome.points_append, pointsAt_append, hdetails, List.append_nil,
    Stats.plan, if_pos hshow]
  simp only
  rw [Plan.run_append, Outcome.points_append, hremarks, List.nil_append, hsame, Plan.run_cons,
    Step.fst_run]
  simp only [Plan.run_nil, Outcome.points_append, Outcome.empty, List.append_nil]

theorem samples_plan :
    (histogram.plan settings labels time .cumulative).samples =
      (Aggregates.of settings labels time histogram.stats).samples ++
        (histogram.detailPlan settings labels time .cumulative).samples := by
  have hremarks : Plan.samples (histogram.stats.remarks labels) = [] :=
    List.flatMap_eq_nil_iff.mpr fun step hs => (Stats.labels_of_mem_remarks hs).2
  rw [plan_eq, Plan.samples, List.flatMap_append, Stats.plan, if_pos hshow]
  simp only
  rw [List.flatMap_append]
  rw [Plan.samples] at hremarks
  rw [hremarks, List.nil_append]
  simp only [List.flatMap_cons, List.flatMap_nil, List.append_nil, Step.samples, Plan.samples]

/-- What is stored of a statistic after a data point. -/
theorem stored?_run_plan (statistic : Statistic) :
    (Plan.run now (histogram.plan settings labels time .cumulative) tracker).2.stored?
        (labels.suffixed statistic.name).series =
      match (Aggregates.of settings labels time histogram.stats).value? statistic with
      | none => tracker.stored? (labels.suffixed statistic.name).series
      | some value =>
        some (Tracker.storedAfter (tracker.stored? (labels.suffixed statistic.name).series)
          ⟨time, value⟩) := by
  rw [Plan.tracker_run, samples_plan hshow, Plan.observeAll_append]
  simp only
  rw [Tracker.stored?, Tracker.get?_observeAll_of_not_sampled _ _
    fun sample hm => series_ne_of_mem_detailPlan hm statistic]
  let a := Aggregates.of settings labels time histogram.stats
  cases hv : a.value? statistic with
  | none =>
    rw [Tracker.get?_observeAll_of_not_sampled, Tracker.stored?]
    intro sample hm e
    obtain ⟨other, value, ho, rfl⟩ := Aggregates.mem_samples.mp hm
    by_cases hne : other = statistic
    · subst hne
      rw [hv] at ho
      exact absurd ho (by simp)
    · exact a.series_labelsOf_ne hne e
  | some value =>
    have hm : a.sampleOf statistic value ∈ a.samples :=
      Aggregates.mem_samples.mpr ⟨statistic, value, hv, rfl⟩
    have := Tracker.get?_observeAll_of_nodup tracker now a.nodup_series_samples hm
    rw [show (labels.suffixed statistic.name).series = (a.sampleOf statistic value).series from rfl,
      this, Option.map_some, Tracker.stored_entryAfter]
    rfl

end Histogram

end MetricPoints
