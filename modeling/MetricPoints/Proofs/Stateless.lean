import MetricPoints.Proofs.Planned
import MetricPoints.Proofs.Reported

/-
  Metrics without a memory: gauges, sums and histograms of the time since the last report, totals
  that are reported as they stand, cumulative histograms that are reported as distributions and
  nothing else, and metrics with a problem. None of their data points is tracked
  (`Metric.tracked_of_stateless`), so that a batch of them submits no samples
  (`Batch.samples_of_stateless`): it neither reads nor writes the tracker, whatever series it
  holds. Batches of them can therefore be put anywhere between other calls
  (`Padded.serve`).

  Main statement: `Converter.stateless_batches_leave_no_mark`.
-/

namespace MetricPoints

variable {V : Type}

/-- Says whether a metric is reported without regard to what was reported before. -/
def Metric.stateless (settings : Settings) (metric : Metric V) : Bool :=
  metric.problem?.isSome ||
    match metric.data with
    | .gauge _ => true
    | .sum code monotonic _ =>
      code = 1 || code = 2 && (!monotonic || settings.totalMode = .standing)
    | .histogram code _ =>
      code = 1 || code = 2 && settings.bucketMode = .distributions && !settings.aggregations
    | .exponential code _ => code = 1
    | .unknown | .summary _ => false

/-- Says whether a batch holds only metrics without a memory. -/
def Batch.Stateless (settings : Settings) (batch : Batch V) : Prop :=
  ∀ metric ∈ batch.metrics, metric.stateless settings = true

instance (settings : Settings) (batch : Batch V) : Decidable (batch.Stateless settings) :=
  inferInstanceAs (Decidable (∀ metric ∈ batch.metrics, metric.stateless settings = true))

/-- No data point of a metric without a memory goes through the tracker. -/
theorem Metric.tracked_of_stateless {settings : Settings} {metric : Metric V}
    (h : metric.stateless settings = true) {point : DataPoint (Measured V)}
    (hp : point ∈ metric.data.points) : point.value.tracked settings = false := by
  obtain ⟨name, data⟩ := metric
  cases data with
  | unknown => exact absurd hp List.not_mem_nil
  | summary => exact nomatch h
  | gauge | exponential =>
    obtain ⟨point, -, rfl⟩ := List.mem_map.mp hp
    rfl
  | sum code monotonic =>
    obtain ⟨point, -, rfl⟩ := List.mem_map.mp hp
    simp only [DataPoint.map, Measured.tracked, Temporality.ofCode?_eq_cumulative_iff]
    by_cases hcode : code = 2
    · have hmode : monotonic = false ∨ settings.totalMode = .standing := by
        simpa [stateless, problem?, hcode] using h
      rcases hmode with rfl | hmode
      · simp
      · simp [hmode]
    · simp [hcode]
  | histogram code =>
    obtain ⟨point, -, rfl⟩ := List.mem_map.mp hp
    simp only [DataPoint.map, Measured.tracked, Temporality.ofCode?_eq_cumulative_iff]
    by_cases hcode : code = 2
    · have hmode : settings.bucketMode = .distributions ∧ settings.aggregations = false := by
        simpa [stateless, problem?, hcode] using h
      simp [Settings.showsStatistics, hmode]
    · simp [hcode]

namespace Batch

variable {batch : Batch V}

/-- Every data point of a batch is one of a metric of it. -/
theorem exists_metric_of_mem_sites {site : Site V} (h : site ∈ batch.sites) :
    ∃ metric ∈ batch.metrics, site.point ∈ metric.data.points := by
  obtain ⟨resource, hr, h⟩ := List.mem_flatMap.mp h
  obtain ⟨scope, hs, h⟩ := List.mem_flatMap.mp h
  obtain ⟨metric, hm, h⟩ := List.mem_flatMap.mp h
  obtain ⟨point, hp, rfl⟩ := List.mem_map.mp h
  exact ⟨metric, List.mem_flatMap.mpr ⟨resource, hr, List.mem_flatMap.mpr ⟨scope, hs, hm⟩⟩, hp⟩

variable [Amount V] {settings : Settings}

theorem samples_of_stateless (h : batch.Stateless settings) :
    (Batch.plan settings batch).samples = [] := by
  rw [samples_plan, List.flatMap_eq_nil_iff]
  intro site hs
  obtain ⟨metric, hm, hp⟩ := exists_metric_of_mem_sites hs
  exact Site.samples_eq_nil (Metric.tracked_of_stateless (h metric hm) hp)

end Batch

/-- The same calls with batches of metrics without a memory put anywhere between them. -/
inductive Padded (settings : Settings) : List (Call V) → List (Call V) → Prop where
  | nil : Padded settings [] []
  | call {calls padded : List (Call V)} (call : Call V) (h : Padded settings calls padded) :
      Padded settings (call :: calls) (call :: padded)
  | extra {calls padded : List (Call V)} (now : Nat) {batch : Batch V}
      (hb : batch.Stateless settings) (h : Padded settings calls padded) :
      Padded settings calls (.convert now batch :: padded)

variable [Amount V]

namespace Converter

variable {converter other : Converter V} {batch : Batch V}

/-- A batch of metrics without a memory only moves the counters. -/
theorem snd_convert_of_stateless (h : batch.Stateless converter.settings) (now : Nat) :
    (converter.convert now batch).2 =
      { converter with counts := (converter.convert now batch).2.counts } := by
  have htracker : (converter.convert now batch).2.tracker = converter.tracker := by
    rw [tracker_convert, Batch.samples_of_stateless h]
    rfl
  rw [← htracker, convert_eq]
  rfl

theorem convert_of_stateless (h : batch.Stateless converter.settings)
    (hs : other.settings = converter.settings) (now now' : Nat) :
    (converter.convert now batch).1.points = (other.convert now' batch).1.points ∧
      (converter.convert now batch).1.report = (other.convert now' batch).1.report := by
  have hrun : (Plan.run now (Batch.plan converter.settings batch) converter.tracker).1 =
      (Plan.run now' (Batch.plan other.settings batch) other.tracker).1 := by
    rw [hs, (Plan.run_of_samples_eq_nil now (Batch.samples_of_stateless h) _ other.tracker).1]
    exact ((Tracker.Alike.refl other.tracker).run now now' _).1
  rw [fst_convert, fst_convert]
  exact ⟨congrArg Outcome.points hrun, congrArg Report.of hrun⟩

/-- The counters have no say in what a batch gives, nor in what becomes of anything but them. -/
theorem convert_with_counts (converter : Converter V) (counts : Counts) (now : Nat)
    (batch : Batch V) :
    ∃ counts', { converter with counts }.convert now batch =
      ((converter.convert now batch).1,
        { (converter.convert now batch).2 with counts := counts' }) :=
  ⟨({ converter with counts }.convert now batch).2.counts, by rw [convert_eq, convert_eq]; rfl⟩

/-- The counters have no say in what calls give. -/
theorem serve_with_counts (converter : Converter V) (counts : Counts) (calls : List (Call V)) :
    ({ converter with counts }.serve calls).1 = (converter.serve calls).1 := by
  induction calls generalizing converter counts with
  | nil => rfl
  | cons call rest ih =>
    cases call with
    | convert now batch =>
      obtain ⟨counts', he⟩ := converter.convert_with_counts counts now batch
      simp only [serve]
      rw [he, ih]
    | sweep now => exact ih { converter with tracker := converter.tracker.sweep now } counts
    | fallback source =>
      exact ih { converter with settings := { converter.settings with fallback := source } } counts

end Converter

/-- Batches of metrics without a memory leave the converter as it is, but for its counters. -/
theorem Padded.serve {settings : Settings} {calls padded : List (Call V)}
    (h : Padded settings calls padded) {fallback : Except String Source} (converter : Converter V)
    (hs : converter.settings = { settings with fallback }) (counts : Counts) :
    ∃ counts', ({ converter with counts }.serve padded).2 =
      { (converter.serve calls).2 with counts := counts' } := by
  -- one of the converters may have counted more from the start
  induction h generalizing fallback converter counts with
  | nil => exact ⟨counts, rfl⟩
  | call call _ ih =>
    cases call with
    | convert now batch =>
      obtain ⟨counts', he⟩ := converter.convert_with_counts counts now batch
      simp only [Converter.serve]
      rw [he]
      exact ih _ ((converter.settings_convert now batch).trans hs) counts'
    | sweep now => exact ih { converter with tracker := converter.tracker.sweep now } hs counts
    | fallback source =>
      have hs' : { converter.settings with fallback := source } =
          { settings with fallback := source } := by rw [hs]
      exact ih { converter with settings := { converter.settings with fallback := source } } hs'
        counts
  | @extra _ padded now batch hb _ ih =>
    have hb' : batch.Stateless { converter with counts }.settings := by
      rw [hs]
      exact hb
    have hextra := congrArg (fun after => (Converter.serve after padded).2)
      (Converter.snd_convert_of_stateless hb' now)
    obtain ⟨counts', he⟩ := ih converter hs ({ converter with counts }.convert now batch).2.counts
    exact ⟨counts', hextra.trans he⟩

namespace Converter

/-- A batch of metrics without a memory leaves the very same tracker, and any two converters with
the same settings give the same points and the same report for it, whatever they have seen and
whatever their clocks read. Put anywhere between other calls, such batches leave the tracker as
those calls alone do, and all that is served afterwards gives the same. -/
theorem stateless_batches_leave_no_mark (converter : Converter V) :
    (∀ batch : Batch V, batch.Stateless converter.settings →
      (∀ now, (converter.convert now batch).2.tracker = converter.tracker) ∧
      ∀ other : Converter V, other.settings = converter.settings → ∀ now now',
        (converter.convert now batch).1.points = (other.convert now' batch).1.points ∧
        (converter.convert now batch).1.report = (other.convert now' batch).1.report) ∧
    ∀ calls padded : List (Call V), Padded converter.settings calls padded →
      (converter.serve padded).2.tracker = (converter.serve calls).2.tracker ∧
      ∀ rest,
        ((converter.serve padded).2.serve rest).1 = ((converter.serve calls).2.serve rest).1 := by
  refine ⟨fun batch h => ⟨fun now => ?_, fun other hs => convert_of_stateless h hs⟩,
    fun calls padded h => ?_⟩
  · rw [snd_convert_of_stateless h]
  · have hs : converter.settings =
        { converter.settings with fallback := converter.settings.fallback } := rfl
    obtain ⟨counts, he⟩ := h.serve converter hs converter.counts
    have he' : (converter.serve padded).2 = { (converter.serve calls).2 with counts } := he
    rw [he']
    exact ⟨rfl, serve_with_counts _ counts⟩

/-- A running total of requests. -/
def requestsBy (time : Nat) (value : Int) : Batch Rat :=
  [⟨[], [⟨none, [⟨"requests", .sum 2 true [⟨time, [], 0, some (.integer value)⟩]⟩]⟩]⟩]

/-- A gauge of the name of the running total, and a metric without data. -/
def gaugeOfRequests : Batch Rat :=
  [⟨[], [⟨none, [⟨"requests", .gauge [⟨5, [], 0, some (.integer 100)⟩]⟩, ⟨"sizes", .unknown⟩]⟩]⟩]

theorem gauge_between_totals :
    let converter : Converter Rat := ⟨Settings.default, .empty 0, .collector, false, .zero⟩
    let calls := [.convert 0 (requestsBy 1 5)]
    let padded := [.convert 0 (requestsBy 1 5), .convert 0 gaugeOfRequests]
    let rest := [.convert 0 (requestsBy 2 9)]
    gaugeOfRequests.Stateless converter.settings ∧ Padded converter.settings calls padded ∧
      (converter.convert 0 gaugeOfRequests).2.tracker = converter.tracker ∧
      ((converter.serve padded).2.serve rest).1 = ((converter.serve calls).2.serve rest).1 ∧
      ((converter.serve calls).2.serve rest).1.map (fun given => given.points.length) = [1] := by
  intro converter calls padded rest
  have hgauge : gaugeOfRequests.Stateless converter.settings := by decide
  have hpadded : Padded converter.settings calls padded := .call _ (.extra 0 hgauge .nil)
  obtain ⟨halone, hstream⟩ := stateless_batches_leave_no_mark converter
  exact ⟨hgauge, hpadded, (halone _ hgauge).1 0, (hstream _ _ hpadded).2 rest, by decide +kernel⟩

end Converter

end MetricPoints
