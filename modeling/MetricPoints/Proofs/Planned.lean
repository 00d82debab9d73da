import MetricPoints.Proofs.Sites
import MetricPoints.Proofs.Statistics

/-
  What can be planned for a data point. `Planned` has one case for each kind of step, with the
  settings that ask for it and the labels, time and value that it carries; every step of a plan
  is one of these (`MetricData.planned_of_mem`), so that what holds of all steps is proved case by
  case and the plans are not opened again. The first such fact is that only data points that are
  tracked submit samples (`Planned.samples_eq_nil`).

  Main statement: `Site.planned_of_mem`.
-/

namespace MetricPoints

variable {V : Type}

namespace Measured

/-- The temporality and the statistics of a histogram of either kind, if it is supported. -/
def stats? : Measured V → Option (Temporality × Stats V)
  | histogram code h => (Temporality.ofCode? code).map (·, h.stats)
  | exponential code h =>
    if Temporality.ofCode? code = some .delta then some (.delta, h.stats) else none
  | _ => none

/-- Says whether a data point goes through the tracker: running totals that are reported by their
increases, cumulative histograms unless a distribution is all there is of them, and summaries. -/
def tracked (settings : Settings) : Measured V → Bool
  | sum code monotonic _ =>
    Temporality.ofCode? code = some .cumulative && monotonic && settings.totalMode = .increases
  | histogram code _ =>
    Temporality.ofCode? code = some .cumulative &&
      (settings.showsStatistics || settings.bucketMode = .counters)
  | summary _ => true
  | _ => false

end Measured

variable [Amount V]

/-- The steps that can be planned for a data point with these labels at this time, by what it
measures. Numbers that are passed on are finite. -/
inductive Planned (settings : Settings) (base : Labels) (time : Nat) :
    Measured V → Step V → Prop where
  | notice {measured : Measured V} (notice : Notice V) :
      Planned settings base time measured (.note notice)
  | gauge {number : Number V} (hfinite : Amount.finite number.amount = true) :
      Planned settings base time (.gauge (some number))
        (.emit (.at time base (.gauge number.amount)))
  | standing {code : Int} {monotonic : Bool} {number : Number V}
      (hcode : Temporality.ofCode? code = some .cumulative)
      (htotal : ¬ (monotonic = true ∧ settings.totalMode = .increases))
      (hfinite : Amount.finite number.amount = true) :
      Planned settings base time (.sum code monotonic (some number))
        (.emit (.at time base (.gauge number.amount)))
  | count {code : Int} {monotonic : Bool} {number : Number V}
      (hcode : Temporality.ofCode? code = some .delta)
      (hfinite : Amount.finite number.amount = true) :
      Planned settings base time (.sum code monotonic (some number))
        (.emit (.at time base (.count number.amount)))
  | total {code : Int} {number : Number V} (role : Role)
      (hcode : Temporality.ofCode? code = some .cumulative)
      (htotal : settings.totalMode = .increases)
      (hfinite : Amount.finite number.amount = true) :
      Planned settings base time (.sum code true (some number))
        (.track role ⟨base, time, number.amount⟩)
  | statistic {measured : Measured V} {stats : Stats V} {statistic : Statistic} {value : V}
      (hstats : measured.stats? = some (.delta, stats))
      (hshow : settings.showsStatistics = true)
      (hvalue : (Aggregates.of settings base time stats).value? statistic = some value) :
      Planned settings base time measured
        (.emit ((Aggregates.of settings base time stats).point statistic value))
  | aggregate {measured : Measured V} {stats : Stats V}
      (hstats : measured.stats? = some (.cumulative, stats))
      (hshow : settings.showsStatistics = true) :
      Planned settings base time measured (.aggregate (.of settings base time stats))
  | distribution {measured : Measured V} {temporality : Temporality} {stats : Stats V}
      (layout : Layout) (hstats : measured.stats? = some (temporality, stats))
      (hmode : settings.bucketMode ≠ .omitted) :
      Planned settings base time measured
        (.emit (.at time base (.distribution ⟨stats.finite, temporality, layout⟩)))
  | bucket {code : Int} {temporality : Temporality} {histogram : Histogram V}
      {bucket : (String × String) × Nat} (hcode : Temporality.ofCode? code = some temporality)
      (hmode : settings.bucketMode = .counters)
      (hbucket : bucket ∈ (Histogram.bucketEdges histogram.bounds).zip histogram.counts) :
      Planned settings base time (.histogram code histogram)
        (Histogram.bucketStep base time temporality bucket)
  | summaryCount (summary : Summary V) :
      Planned settings base time (.summary summary)
        (.track .part ⟨base.suffixed "count", time, Amount.ofNat summary.count⟩)
  | summarySum {summary : Summary V} (hfinite : Amount.finite summary.sum = true) :
      Planned settings base time (.summary summary)
        (.track .part ⟨base.suffixed "sum", time, summary.sum⟩)
  | quantile {summary : Summary V} {entry : Float × V} (hshow : settings.quantiles = true)
      (hentry : entry ∈ summary.quantiles) (hfinite : Amount.finite entry.2 = true) :
      Planned settings base time (.summary summary)
        (.emit (.at time ((base.suffixed "quantile").tagged
          [.pair "quantile" (Decimal.text entry.1)]) (.gauge entry.2)))

section Plans

variable {settings : Settings} {base : Labels} {time : Nat} {measured : Measured V} {step : Step V}

/-- A number that is there is either of use or remarked on. -/
theorem Number.planned_of_mem {value : Option (Number V)} {use : V → Step V}
    {kind : Option (Number V) → Measured V}
    (huse : ∀ {number : Number V}, Amount.finite number.amount = true →
      Planned settings base time (kind (some number)) (use number.amount))
    (h : step ∈ value.toList.map (Number.step base use)) :
    Planned settings base time (kind value) step := by
  obtain ⟨number, hn, rfl⟩ := List.mem_map.mp h
  rw [Option.mem_toList.mp hn, Number.step]
  split
  · rename_i hfinite
    exact huse hfinite
  · exact .notice _

theorem Stats.planned_of_mem {temporality : Temporality} {stats : Stats V}
    (hstats : measured.stats? = some (temporality, stats))
    (h : step ∈ stats.plan settings base time temporality) :
    Planned settings base time measured step := by
  unfold Stats.plan at h
  split at h
  · rename_i hshow
    rcases List.mem_append.mp h with h | h
    · obtain ⟨remark, rfl⟩ := remark_of_mem_remarks h
      exact .notice _
    · cases temporality with
      | delta =>
        obtain ⟨⟨statistic, value⟩, he, rfl⟩ := List.mem_map.mp h
        exact .statistic hstats hshow (Aggregates.mem_values.mp he)
      | cumulative =>
        rw [List.mem_singleton.mp h]
        exact .aggregate hstats hshow
  · exact absurd h List.not_mem_nil

theorem Stats.planned_of_mem_distributionPlan {temporality : Temporality} {stats : Stats V}
    {layout : Layout} (hstats : measured.stats? = some (temporality, stats))
    (hmode : settings.bucketMode ≠ .omitted)
    (h : step ∈ stats.distributionPlan base time temporality layout) :
    Planned settings base time measured step := by
  rcases List.mem_append.mp h with h | h
  · obtain ⟨remark, rfl⟩ := remark_of_mem_remarks h
    exact .notice _
  · rw [List.mem_singleton.mp h]
    exact .distribution layout hstats hmode

theorem Histogram.planned_of_mem_bucketPlan {code : Int} {temporality : Temporality}
    {histogram : Histogram V} (hcode : Temporality.ofCode? code = some temporality)
    (hmode : settings.bucketMode = .counters)
    (h : step ∈ histogram.bucketPlan base time temporality) :
    Planned settings base time (.histogram code histogram) step := by
  unfold bucketPlan at h
  split at h
  · exact absurd h List.not_mem_nil
  · split at h
    · obtain ⟨bucket, hbucket, rfl⟩ := List.mem_map.mp h
      exact .bucket hcode hmode hbucket
    · rw [List.mem_singleton.mp h]
      exact .notice _

theorem Histogram.planned_of_mem {code : Int} {temporality : Temporality}
    {histogram : Histogram V} (hcode : Temporality.ofCode? code = some temporality)
    (h : step ∈ histogram.plan settings base time temporality) :
    Planned settings base time (.histogram code histogram) step := by
  have hstats : (Measured.histogram code histogram).stats? = some (temporality, histogram.stats) :=
    by rw [Measured.stats?, hcode, Option.map_some]
  rcases List.mem_append.mp h with h | h
  · exact Stats.planned_of_mem hstats h
  · split at h
    · exact absurd h List.not_mem_nil
    · rename_i hmode
      exact planned_of_mem_bucketPlan hcode hmode h
    · rename_i hmode
      exact Stats.planned_of_mem_distributionPlan hstats (by simp [hmode]) h

theorem ExponentialHistogram.planned_of_mem {code : Int} {histogram : ExponentialHistogram V}
    (hcode : Temporality.ofCode? code = some .delta)
    (h : step ∈ histogram.plan settings base time) :
    Planned settings base time (.exponential code histogram) step := by
  have hstats : (Measured.exponential code histogram).stats? = some (.delta, histogram.stats) :=
    if_pos hcode
  rcases List.mem_append.mp h with h | h
  · exact Stats.planned_of_mem hstats h
  · split at h
    · exact absurd h List.not_mem_nil
    · rename_i hmode
      exact Stats.planned_of_mem_distributionPlan hstats hmode h

theorem Summary.planned_of_mem {summary : Summary V} (h : step ∈ summary.plan settings base time) :
    Planned settings base time (.summary summary) step := by
  rcases List.mem_cons.mp h with rfl | h
  · exact .summaryCount summary
  · rcases List.mem_cons.mp h with rfl | h
    · unfold sumStep
      split
      · rename_i hfinite
        exact .summarySum hfinite
      · exact .notice _
    · split at h
      · rename_i hshow
        obtain ⟨entry, hentry, rfl⟩ := List.mem_map.mp h
        unfold quantileStep
        split
        · rename_i hfinite
          exact .quantile hshow hentry hfinite
        · exact .notice _
      · exact absurd h List.not_mem_nil

omit [Amount V] in
theorem mem_pointPlans_singleton {α : Type} {plan : DataPoint α → Plan V} {point : DataPoint α}
    (h : step ∈ pointPlans plan [point]) : step ∈ plan point := by
  obtain ⟨other, ho, hs⟩ := List.mem_flatMap.mp h
  rwa [List.mem_singleton.mp (List.mem_filter.mp ho).1] at hs

/-- Every step of the plan of a data point is one of those that can be planned for it. -/
theorem MetricData.planned_of_mem {labels : Labels} {point : DataPoint (Measured V)}
    (h : step ∈ (single point).plan settings labels) :
    Planned settings (labels.withAttributes point.attributes) point.time point.value step := by
  obtain ⟨time, attributes, flags, value⟩ := point
  cases value with
  | gauge value => exact Number.planned_of_mem .gauge (mem_pointPlans_singleton h)
  | sum code monotonic value =>
    simp only [single, plan] at h
    split at h
    · rename_i hcode
      split at h
      · rename_i htotal
        rw [Bool.and_eq_true, decide_eq_true_eq] at htotal
        obtain ⟨rfl, htotal⟩ := htotal
        exact Number.planned_of_mem (.total _ hcode htotal) (mem_pointPlans_singleton h)
      · rename_i htotal
        rw [Bool.and_eq_true, decide_eq_true_eq] at htotal
        exact Number.planned_of_mem (.standing hcode htotal) (mem_pointPlans_singleton h)
    · rename_i hcode
      exact Number.planned_of_mem (.count hcode) (mem_pointPlans_singleton h)
    · rw [List.mem_singleton.mp h]
      exact .notice _
  | histogram code histogram =>
    simp only [single, plan] at h
    split at h
    · rename_i hcode
      exact Histogram.planned_of_mem hcode (mem_pointPlans_singleton h)
    · rw [List.mem_singleton.mp h]
      exact .notice _
  | exponential code histogram =>
    simp only [single, plan] at h
    split at h
    · rename_i hcode
      exact ExponentialHistogram.planned_of_mem hcode (mem_pointPlans_singleton h)
    · rw [List.mem_singleton.mp h]
      exact .notice _
  | summary summary => exact Summary.planned_of_mem (mem_pointPlans_singleton h)

/-- Every step of the plan of a data point alone but a notice can be planned for it. -/
theorem Site.planned_of_mem {site : Site V} (h : step ∈ (site.alone.plan settings).working) :
    Planned settings ((site.labels settings).withAttributes site.point.attributes)
      site.point.time site.point.value step := by
  rw [site.working_alone] at h
  exact MetricData.planned_of_mem (List.mem_filter.mp h).1

/-! ## Data points that are not tracked -/

omit [Amount V] in
/-- A histogram goes through the tracker if it is cumulative, unless a distribution is all there is
of it. -/
theorem Measured.tracked_of_stats? {temporality : Temporality} {stats : Stats V}
    (h : measured.stats? = some (temporality, stats)) :
    measured.tracked settings = (decide (temporality = .cumulative) &&
      (settings.showsStatistics || settings.bucketMode = .counters)) := by
  cases measured with
  | histogram code histogram =>
    obtain ⟨_, hcode, he⟩ := Option.map_eq_some_iff.mp h
    cases he
    simp [tracked, hcode]
  | exponential code histogram =>
    simp only [stats?] at h
    split at h
    · cases h
      rfl
    · exact nomatch h
  | gauge | sum | summary => exact nomatch h

/-- Only data points that are tracked submit samples. -/
theorem Planned.samples_eq_nil (h : Planned settings base time measured step)
    (ht : measured.tracked settings = false) : step.samples = [] := by
  cases h with
  | notice | gauge | standing | count | statistic | distribution | quantile => rfl
  | total role hcode htotal => simp [Measured.tracked, hcode, htotal] at ht
  | summaryCount | summarySum => exact nomatch ht
  | @bucket _ temporality _ _ hcode hmode =>
    cases temporality with
    | delta => rfl
    | cumulative => simp [Measured.tracked, hcode, hmode] at ht
  | aggregate hstats hshow =>
    rw [Measured.tracked_of_stats? hstats, hshow] at ht
    exact nomatch ht

end Plans

namespace Plan

omit [Amount V] in
/-- Notices submit no samples. -/
theorem samples_working (plan : Plan V) : plan.working.samples = plan.samples := by
  induction plan with
  | nil => rfl
  | cons step rest ih =>
    cases step with
    | note notice => exact ih
    | _ => exact congrArg (_ ++ ·) ih

end Plan

/-- The samples of a batch are those of its data points, in order. -/
theorem Batch.samples_plan (settings : Settings) (batch : Batch V) :
    (Batch.plan settings batch).samples =
      batch.sites.flatMap fun site => (site.alone.plan settings).samples := by
  rw [← Plan.samples_working, Batch.working_plan, Plan.samples, List.flatMap_assoc]
  exact List.flatMap_congr fun site _ => Plan.samples_working _

theorem Site.samples_eq_nil {settings : Settings} {site : Site V}
    (h : site.point.value.tracked settings = false) : (site.alone.plan settings).samples = [] := by
  rw [← Plan.samples_working, Plan.samples, List.flatMap_eq_nil_iff]
  exact fun step hs => (Site.planned_of_mem hs).samples_eq_nil h

end MetricPoints
