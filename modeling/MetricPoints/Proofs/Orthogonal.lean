import MetricPoints.Proofs.Arrivals

/-
  The options for histograms and summaries do not interfere with each other. A word without a dot
  that ends a name can be read off the name (`Series.EndsIn.eq`), so that bucket series and extremum
  series never meet the series of counts and sums, whatever metrics are called. Trackers that differ
  at most in the series an option adds (`Tracker.AlikeOn`) agree on everything else through samples
  and sweeps, and what a data point gives splits into a part that both settings plan and a part of
  other names.

  Main statement: `Station.options_are_orthogonal`.
-/

namespace MetricPoints

variable {V : Type}

/-! ## Last words of names -/

theorem eq_of_append_dot {xs ys a b : List Char} (ha : '.' ∉ a) (hb : '.' ∉ b)
    (h : xs ++ '.' :: a = ys ++ '.' :: b) : a = b := by
  rcases List.append_eq_append_iff.mp h with ⟨mid, -, he⟩ | ⟨mid, -, he⟩
  · cases mid with
    | nil => exact (List.cons.inj he).2
    | cons c rest =>
      have hm : a = rest ++ '.' :: b := (List.cons.inj he).2
      exact absurd (hm ▸ List.mem_append_right _ List.mem_cons_self) ha
  · cases mid with
    | nil => exact (List.cons.inj he).2.symm
    | cons c rest =>
      have hm : b = rest ++ '.' :: a := (List.cons.inj he).2
      exact absurd (hm ▸ List.mem_append_right _ List.mem_cons_self) hb

/-- Says whether the name of a series ends in a dot and a word. -/
def Series.EndsIn (series : Series) (word : String) : Prop :=
  ∃ name, series.name = name ++ "." ++ word

/-- A name has only one last word. -/
theorem Series.EndsIn.eq {series : Series} {word other : String} (h : series.EndsIn word)
    (h' : series.EndsIn other) (hw : '.' ∉ word.toList) (ho : '.' ∉ other.toList) :
    word = other := by
  obtain ⟨name, hn⟩ := h
  obtain ⟨name', hn'⟩ := h'
  have he := congrArg String.toList (hn.symm.trans hn')
  have hdot : ".".toList = ['.'] := rfl
  simp only [String.toList_append, List.append_assoc, hdot, List.cons_append,
    List.nil_append] at he
  exact String.toList_injective (eq_of_append_dot hw ho he)

/-- Labels whose name is suffixed by a word are of a series that ends in no other word. -/
theorem Labels.not_endsIn {labels other : Labels} {suffix word : String}
    (hname : other.name = (labels.suffixed suffix).name) (hs : '.' ∉ suffix.toList)
    (hw : '.' ∉ word.toList) (hne : suffix ≠ word) : ¬ other.series.EndsIn word :=
  fun h => hne (Series.EndsIn.eq ⟨labels.name, hname⟩ h hs hw)

/-! ## Trackers that differ in some series only -/

/-- Two trackers that differ at most in what they know of series that do not count. -/
structure Tracker.AlikeOn (counts : Series → Prop) (left right : Tracker V) : Prop where
  ttl : left.ttl = right.ttl
  entry (series : Series) (h : counts series) :
    left.entries.get? series = right.entries.get? series

namespace Tracker.AlikeOn

variable {counts : Series → Prop} {left right : Tracker V}

theorem refl (counts : Series → Prop) (tracker : Tracker V) : AlikeOn counts tracker tracker :=
  ⟨rfl, fun _ _ => rfl⟩

theorem sweep (h : AlikeOn counts left right) (now : Nat) :
    AlikeOn counts (left.sweep now) (right.sweep now) where
  ttl := h.ttl
  entry series hs := by rw [get?_sweep, get?_sweep, h.ttl, h.entry series hs]

/-- Samples that observe the series that count alike keep trackers alike. -/
theorem observeAll (h : AlikeOn counts left right) (now : Nat) {xs ys : List (Sample V)}
    (hs : ∀ series, counts series → observationsOf series xs = observationsOf series ys) :
    AlikeOn counts (left.observeAll now xs).2 (right.observeAll now ys).2 where
  ttl := by rw [ttl_observeAll, ttl_observeAll, h.ttl]
  entry series hc := by
    rw [get?_observeAll, get?_observeAll, h.entry series hc, hs series hc]

variable [Amount V]

theorem run (h : AlikeOn counts left right) (now : Nat) {p q : Plan V}
    (hs : ∀ series, counts series →
      observationsOf series p.samples = observationsOf series q.samples) :
    AlikeOn counts (Plan.run now p left).2 (Plan.run now q right).2 := by
  rw [Plan.tracker_run, Plan.tracker_run]
  exact h.observeAll now hs

/-- A plan whose samples are of series that count yields the same from both. -/
theorem outcome_run (h : AlikeOn counts left right) (now : Nat) {plan : Plan V}
    (hs : ∀ sample ∈ plan.samples, counts sample.series) :
    (Plan.run now plan left).1 = (Plan.run now plan right).1 := by
  refine (Plan.run_of_respects (R := AlikeOn counts) (fun sample hm => ?_) h).1
  have hsame : ∀ series, counts series →
      observationsOf series [sample] = observationsOf series [sample] := fun _ _ => rfl
  refine ⟨fun hr => ?_, fun hr => hr.observeAll now hsame⟩
  rw [changeFor, changeFor, hr.entry _ (hs sample hm)]

end Tracker.AlikeOn

/-! ## Points by their names -/

namespace Outcome

/-- The points with one of these names. -/
def named (names : List String) (outcome : Outcome V) : List (Point V) :=
  outcome.points.filter (·.labels.name ∈ names)

/-- The outcome without the points that have one of these names. -/
def without (names : List String) (outcome : Outcome V) : Outcome V :=
  { outcome with points := outcome.points.filter (·.labels.name ∉ names) }

theorem named_append (names : List String) (a b : Outcome V) :
    (a ++ b).named names = a.named names ++ b.named names :=
  List.filter_append ..

theorem without_append (names : List String) (a b : Outcome V) :
    (a ++ b).without names = a.without names ++ b.without names := by
  apply ext
  · exact List.filter_append ..
  · rfl
  · rfl

end Outcome

/-- Says whether no point of a plan can have one of these names. -/
def Plan.Avoids (plan : Plan V) (names : List String) : Prop :=
  ∀ step ∈ plan, ∀ labels ∈ step.labels, labels.name ∉ names

namespace Plan.Avoids

variable [Amount V] {plan : Plan V} {names : List String} (h : plan.Avoids names) (now : Nat)
  (tracker : Tracker V)

include h

theorem not_mem_names {point : Point V} (hp : point ∈ (run now plan tracker).1.points) :
    point.labels.name ∉ names := by
  obtain ⟨step, hs, hl⟩ := Plan.labels_of_mem_points hp
  exact h step hs _ hl

theorem named_run : (run now plan tracker).1.named names = [] := by
  rw [Outcome.named, List.filter_eq_nil_iff]
  exact fun point hp => by simpa using h.not_mem_names now tracker hp

theorem without_run : (run now plan tracker).1.without names = (run now plan tracker).1 := by
  apply Outcome.ext
  · rw [Outcome.without, List.filter_eq_self]
    exact fun point hp => by simpa using h.not_mem_names now tracker hp
  · rfl
  · rfl

end Plan.Avoids

/-- The names of statistics of a data point. -/
def Labels.named (labels : Labels) (statistics : List Statistic) : List String :=
  statistics.map fun statistic => (labels.suffixed statistic.name).name

/-! ## Buckets -/

/-- The statistics that there are. -/
def Statistic.all : List Statistic := [.count, .sum, .min, .max]

section Buckets

variable [Amount V] {settings : Settings}

theorem Histogram.avoids_detailPlan (labels : Labels) (time : Nat) (temporality : Temporality)
    (histogram : Histogram V) :
    (histogram.detailPlan settings labels time temporality).Avoids
      (labels.named Statistic.all) := by
  intro step hs other ho hn
  obtain ⟨statistic, -, he⟩ := List.mem_map.mp hn
  exact name_ne_of_mem_detailPlan hs ho statistic he.symm

theorem Stats.avoids_distributionPlan (stats : Stats V) (labels : Labels) (time : Nat)
    (temporality : Temporality) (layout : Layout) :
    (stats.distributionPlan labels time temporality layout).Avoids
      (labels.named Statistic.all) := by
  intro step hs other ho hn
  obtain ⟨statistic, -, he⟩ := List.mem_map.mp hn
  rcases List.mem_append.mp hs with hs | hs
  · rw [(Stats.labels_of_mem_remarks hs).1] at ho
    exact absurd ho List.not_mem_nil
  · rw [List.mem_singleton.mp hs] at ho
    rw [List.mem_singleton.mp ho] at he
    exact labels.name_ne_suffixed _ he.symm

theorem Stats.samples_distributionPlan (stats : Stats V) (labels : Labels) (time : Nat)
    (temporality : Temporality) (layout : Layout) :
    Plan.samples (stats.distributionPlan labels time temporality layout) = [] := by
  rw [Plan.samples, List.flatMap_eq_nil_iff]
  intro step hs
  rcases List.mem_append.mp hs with hs | hs
  · exact (Stats.labels_of_mem_remarks hs).2
  · rw [List.mem_singleton.mp hs]
    rfl

/-- The samples beside those of the statistics are of bucket series. -/
theorem Histogram.endsIn_of_mem_detailPlan {labels : Labels} {time : Nat}
    {temporality : Temporality} {histogram : Histogram V} {sample : Sample V}
    (h : sample ∈ (histogram.detailPlan settings labels time temporality).samples) :
    sample.series.EndsIn "bucket" := by
  unfold detailPlan at h
  split at h
  · exact absurd h List.not_mem_nil
  · obtain ⟨step, hs, hm⟩ := List.mem_flatMap.mp h
    unfold bucketPlan at hs
    split at hs
    · exact absurd hs List.not_mem_nil
    · split at hs
      · obtain ⟨bucket, -, rfl⟩ := List.mem_map.mp hs
        cases temporality with
        | delta => exact absurd hm List.not_mem_nil
        | cumulative =>
          rw [List.mem_singleton.mp hm]
          exact ⟨labels.name, rfl⟩
      · rw [List.mem_singleton.mp hs] at hm
        exact absurd hm List.not_mem_nil
  · rw [Stats.samples_distributionPlan] at h
    exact absurd h List.not_mem_nil

/-- Where aggregations are reported, a mode only adds to what is planned without buckets: nothing
that has the name of a statistic, and only samples of bucket series. -/
theorem Arrival.exists_details (settings : Settings) (mode : BucketMode) (arrival : Arrival V) :
    ∃ details : Plan V,
      arrival.plan { settings with bucketMode := mode, aggregations := true } =
          arrival.plan { settings with bucketMode := .omitted, aggregations := true } ++ details ∧
        details.Avoids (arrival.labels.named Statistic.all) ∧
        ∀ sample ∈ details.samples, sample.series.EndsIn "bucket" := by
  obtain ⟨labels, time, value⟩ := arrival
  have hstats (temporality : Temporality) (stats : Stats V) :
      stats.plan { settings with bucketMode := mode, aggregations := true } labels time
          temporality =
        stats.plan { settings with bucketMode := .omitted, aggregations := true } labels time
          temporality := by
    simp only [Stats.plan, Settings.showsStatistics, Bool.or_true, if_true, Aggregates.of]
  cases value with
  | histogram temporality histogram =>
    refine ⟨histogram.detailPlan { settings with bucketMode := mode, aggregations := true } labels
      time temporality, ?_, histogram.avoids_detailPlan labels time temporality,
      fun _ => Histogram.endsIn_of_mem_detailPlan⟩
    have hnone : histogram.detailPlan { settings with bucketMode := .omitted, aggregations := true }
        labels time temporality = [] := rfl
    simp only [plan, Aggregated.plan, Histogram.plan_eq, hstats, hnone, List.append_nil]
  | exponential histogram =>
    simp only [plan, Aggregated.plan, ExponentialHistogram.plan, hstats, if_true, List.append_nil]
    split
    · exact ⟨[], rfl, fun _ h => absurd h List.not_mem_nil, fun _ h => absurd h List.not_mem_nil⟩
    · refine ⟨_, rfl, Stats.avoids_distributionPlan _ labels time _ _, ?_⟩
      rw [Stats.samples_distributionPlan]
      exact fun _ h => absurd h List.not_mem_nil
  | summary summary =>
    exact ⟨[], (List.append_nil _).symm, fun _ h => absurd h List.not_mem_nil,
      fun _ h => absurd h List.not_mem_nil⟩

/-- The statistics that are reported without buckets. -/
def Settings.statistics (settings : Settings) : List Statistic :=
  if settings.aggregations then Statistic.all else [.count, .sum]

theorem Aggregates.mem_statistics {labels : Labels} {time : Nat} {stats : Stats V}
    {statistic : Statistic} {value : V}
    (h : (Aggregates.of settings labels time stats).value? statistic = some value) :
    statistic ∈ settings.statistics := by
  unfold Settings.statistics
  split
  · cases statistic <;> decide
  · rename_i hoff
    cases statistic with
    | count | sum => decide
    | min | max => simp [Aggregates.of, value?, hoff] at h

/-- What a data point observes is of a statistic that is reported, and then its count is observed
as well, or else of a bucket. -/
theorem Arrival.statistic_or_bucket {arrival : Arrival V} {sample : Sample V}
    (h : sample ∈ (arrival.plan settings).samples) :
    (∃ statistic ∈ settings.statistics,
        sample.labels = arrival.labels.suffixed statistic.name ∧
          ∃ other ∈ (arrival.plan settings).samples,
            other.labels = arrival.labels.suffixed "count") ∨
      settings.bucketMode = .counters ∧ sample.series.EndsIn "bucket" := by
  have hcount : .count ∈ settings.statistics := by unfold Settings.statistics; split <;> decide
  have hsum : .sum ∈ settings.statistics := by unfold Settings.statistics; split <;> decide
  obtain ⟨step, hs, hm⟩ := List.mem_flatMap.mp h
  have hsubset {other : Sample V} (ho : other ∈ step.samples) :
      other ∈ (arrival.plan settings).samples := List.mem_flatMap.mpr ⟨step, hs, ho⟩
  have hplanned := planned_of_mem hs
  generalize hmeasured : arrival.measured = measured at hplanned
  cases hplanned with
  | notice | gauge | standing | count | statistic | distribution | quantile =>
    exact absurd hm List.not_mem_nil
  | total =>
    unfold measured at hmeasured
    split at hmeasured <;> exact nomatch hmeasured
  | aggregate =>
    obtain ⟨statistic, value, hv, rfl⟩ := Aggregates.mem_samples.mp hm
    have hother := hsubset (Aggregates.mem_samples.mpr ⟨.count, _, rfl, rfl⟩)
    exact .inl ⟨statistic, Aggregates.mem_statistics hv, rfl, _, hother, rfl⟩
  | @bucket _ temporality _ _ hcode hcounters =>
    cases temporality with
    | delta => exact absurd hm List.not_mem_nil
    | cumulative =>
      rw [List.mem_singleton.mp hm]
      exact .inr ⟨hcounters, arrival.labels.name, rfl⟩
  | summaryCount =>
    rw [List.mem_singleton.mp hm]
    exact .inl ⟨.count, hcount, rfl, _, hsubset List.mem_cons_self, rfl⟩
  | @summarySum summary =>
    -- the count is a step of its own, ahead of this one
    have hvalue : arrival.value = .summary summary := by
      unfold measured at hmeasured
      split at hmeasured <;> cases hmeasured
      assumption
    have hplan : arrival.plan settings = summary.plan settings arrival.labels arrival.time := by
      rw [plan, hvalue]
      rfl
    rw [List.mem_singleton.mp hm, hplan]
    exact .inl ⟨.sum, hsum, rfl, _, List.mem_cons_self, rfl⟩

/-- Without buckets, no sample is of a series that ends in another word. -/
theorem Arrival.not_endsIn (hmode : settings.bucketMode = .omitted) {word : String}
    (hw : '.' ∉ word.toList) (hother : ∀ statistic ∈ settings.statistics, statistic.name ≠ word)
    {arrival : Arrival V} {sample : Sample V} (h : sample ∈ (arrival.plan settings).samples) :
    ¬ sample.series.EndsIn word := by
  obtain ⟨statistic, hm, hlabels, -⟩ | ⟨hcounters, -⟩ := statistic_or_bucket h
  · have hdotless : '.' ∉ statistic.name.toList := by cases statistic <;> decide
    exact Labels.not_endsIn (congrArg Labels.name hlabels) hdotless hw (hother statistic hm)
  · exact nomatch hmode.symm.trans hcounters

/-- Where aggregations are reported, the modes differ in what they know of bucket series only, and
report the statistics alike. -/
theorem coupled_modes (settings : Settings) (mode other : BucketMode) :
    Coupled (V := V) { settings with bucketMode := mode, aggregations := true }
      { settings with bucketMode := other, aggregations := true }
      (Tracker.AlikeOn fun series => ¬ series.EndsIn "bucket")
      fun arrival a b =>
        a.named (arrival.labels.named Statistic.all) =
          b.named (arrival.labels.named Statistic.all) where
  sweep h now := h.sweep now
  outcome h now arrival := by
    obtain ⟨details, he, ha, -⟩ := arrival.exists_details settings mode
    obtain ⟨details', he', ha', -⟩ := arrival.exists_details settings other
    have hcore : ∀ sample ∈ (arrival.plan
        { settings with bucketMode := .omitted, aggregations := true }).samples,
        ¬ sample.series.EndsIn "bucket" :=
      fun sample hm => Arrival.not_endsIn rfl (by decide)
        (fun statistic _ => by cases statistic <;> decide) hm
    rw [he, he', Plan.run_append, Plan.run_append, Outcome.named_append, Outcome.named_append,
      ha.named_run, ha'.named_run, h.outcome_run now hcore]
  tracker h now arrival := by
    obtain ⟨details, he, -, hb⟩ := arrival.exists_details settings mode
    obtain ⟨details', he', -, hb'⟩ := arrival.exists_details settings other
    rw [he, he', Plan.run_append, Plan.run_append]
    refine (h.run now fun _ _ => rfl).run now fun series hs => ?_
    have hnone {samples : List (Sample V)}
        (hb : ∀ sample ∈ samples, sample.series.EndsIn "bucket") :
        observationsOf series samples = [] :=
      observationsOf_eq_nil fun sample hm (e : sample.series = series) => hs (e ▸ hb sample hm)
    rw [hnone hb, hnone hb']

end Buckets

/-! ## Extrema -/

/-- Series that are of no extremum. -/
def Series.Plain (series : Series) : Prop := ¬ series.EndsIn "min" ∧ ¬ series.EndsIn "max"

/-- A plan that gives what another one gives, but for points of some names, while the trackers agree
on all that is plain. -/
structure Plan.Sheds [Amount V] (names : List String) (off on : Plan V) : Prop where
  outcome {left right : Tracker V} (h : left.AlikeOn Series.Plain right) (now : Nat) :
    (run now off left).1 = (run now on right).1.without names
  tracker {left right : Tracker V} (h : left.AlikeOn Series.Plain right) (now : Nat) :
    (run now off left).2.AlikeOn Series.Plain (run now on right).2

namespace Plan.Sheds

variable [Amount V] {names : List String} {p q p' q' plan : Plan V}

theorem append (h : Sheds names p q) (h' : Sheds names p' q') :
    Sheds names (p ++ p') (q ++ q') where
  outcome ha now := by
    rw [run_append, run_append, Outcome.without_append, h.outcome ha, h'.outcome (h.tracker ha now)]
  tracker ha now := by
    rw [run_append, run_append]
    exact h'.tracker (h.tracker ha now) now

/-- A plan that is the same for both. -/
theorem same (havoids : plan.Avoids names) (hs : ∀ sample ∈ plan.samples, sample.series.Plain) :
    Sheds names plan plan where
  outcome ha now := by rw [ha.outcome_run now hs, havoids.without_run]
  tracker ha now := ha.run now fun _ _ => rfl

end Plan.Sheds

namespace Aggregates

/-- The statistics without the extrema. -/
def plain (a : Aggregates V) : Aggregates V := { a with min := none, max := none }

theorem values_plain (a : Aggregates V) :
    a.plain.values = a.values.filter fun e => e.1 ∉ [Statistic.min, .max] := by
  obtain ⟨labels, time, count, sum, min, max⟩ := a
  cases sum <;> cases min <;> cases max <;> rfl

theorem name_point_mem_named {a : Aggregates V} {statistic : Statistic} {value : V}
    {statistics : List Statistic} :
    (a.point statistic value).labels.name ∈ a.labels.named statistics ↔ statistic ∈ statistics := by
  constructor
  · intro h
    obtain ⟨other, hm, he⟩ := List.mem_map.mp h
    exact Statistic.name_injective (Labels.name_suffixed_inj he) ▸ hm
  · exact fun h => List.mem_map_of_mem h

/-- The points of the statistics without the extrema. -/
theorem points_plain (a : Aggregates V) :
    (a.plain.values.map fun e => a.point e.1 e.2) =
      (a.values.map fun e => a.point e.1 e.2).filter
        (·.labels.name ∉ a.labels.named [.min, .max]) := by
  rw [values_plain, List.filter_map]
  congr 1
  apply List.filter_congr
  intro e _
  simp only [Function.comp, name_point_mem_named]

theorem plain_labelsOf {a : Aggregates V} {statistic : Statistic}
    (h : statistic ∉ [Statistic.min, .max]) : (a.labelsOf statistic).series.Plain := by
  have hdotless : '.' ∉ statistic.name.toList := by cases statistic <;> decide
  have hne (extremum : Statistic) (he : extremum ∈ [Statistic.min, .max]) :
      statistic.name ≠ extremum.name := fun e => h (Statistic.name_injective e ▸ he)
  exact ⟨Labels.not_endsIn rfl hdotless (by decide) (hne .min (by decide)),
    Labels.not_endsIn rfl hdotless (by decide) (hne .max (by decide))⟩

/-- Without the extrema, the same is observed of the other series. -/
theorem observationsOf_plain (a : Aggregates V) {series : Series} (h : series.Plain) :
    observationsOf series a.plain.samples = observationsOf series a.samples := by
  have hsamples : a.plain.samples =
      (a.values.filter fun e => e.1 ∉ [Statistic.min, .max]).map
        fun e => ⟨a.labelsOf e.1, a.time, e.2⟩ := by
    rw [← values_plain]
    rfl
  rw [observationsOf, hsamples, observationsOf, samples, List.filter_map, List.filter_map,
    List.filter_filter]
  congr 2
  apply List.filter_congr
  rintro ⟨statistic, value⟩ -
  have hextremum : (a.labelsOf statistic).series = series → statistic ∉ [Statistic.min, .max] := by
    rintro rfl
    cases statistic with
    | count | sum => decide
    | min => exact absurd ⟨a.labels.name, rfl⟩ h.1
    | max => exact absurd ⟨a.labels.name, rfl⟩ h.2
  simp only [Function.comp, Sample.series]
  by_cases hs : (a.labelsOf statistic).series = series
  · simp only [hs, hextremum hs, decide_true, not_false_eq_true, Bool.and_true]
  · simp only [hs, decide_false, Bool.false_and]

theorem without_map_point (a : Aggregates V) (statistic : Statistic) (value? : Option V) :
    (value?.toList.map (a.point statistic)).filter
        (·.labels.name ∉ a.labels.named [.min, .max]) =
      if statistic ∈ [Statistic.min, .max] then [] else value?.toList.map (a.point statistic) := by
  cases value? with
  | none => simp
  | some value =>
    simp only [Option.toList_some, List.map_cons, List.map_nil, List.filter_cons,
      name_point_mem_named, List.filter_nil]
    split <;> simp_all

variable [Amount V]

theorem late_outcomeFrom (a : Aggregates V) (tracker : Tracker V) :
    (Step.outcomeFrom tracker (.aggregate a)).late =
      [Statistic.count, .sum].countP fun s => (a.change? tracker s).any Change.isLate := by
  simp only [Step.outcomeFrom, Step.outcome, Step.samples, outcome, lookup_changes]

/-- Statistics without the extrema give the same, but for the points of the extrema. -/
theorem outcomeFrom_plain (a : Aggregates V) {left right : Tracker V}
    (h : left.AlikeOn Series.Plain right) :
    Step.outcomeFrom left (.aggregate a.plain) =
      (Step.outcomeFrom right (.aggregate a)).without (a.labels.named [.min, .max]) := by
  have hchange (statistic : Statistic) (hs : statistic ∉ [Statistic.min, .max]) :
      a.plain.change? left statistic = a.change? right statistic := by
    have hvalue : a.plain.value? statistic = a.value? statistic := by
      cases statistic with
      | count | sum => rfl
      | min | max => exact absurd hs (by decide)
    unfold change?
    rw [hvalue]
    congr 1
    funext value
    exact congrArg (Tracker.changeOf · a.time value) (h.entry _ (plain_labelsOf hs))
  have hcount := hchange .count (by decide)
  have hsum := hchange .sum (by decide)
  have hcount' : a.plain.increase? left .count = a.increase? right .count :=
    congrArg (·.bind Change.increase?) hcount
  have hsum' : a.plain.increase? left .sum = a.increase? right .sum :=
    congrArg (·.bind Change.increase?) hsum
  have hcomplete : a.plain.complete left = a.complete right := by
    rw [complete, hcount', hsum']
    rfl
  apply Outcome.ext
  · rw [points_outcomeFrom, Outcome.without, points_outcomeFrom, hcomplete]
    split
    · simp only [List.filter_append, without_map_point, List.mem_cons, List.not_mem_nil,
        reduceCtorEq, or_false, or_true, if_true, if_false, List.append_nil]
      rw [hcount', hsum']
      exact (List.append_nil _).trans (List.append_nil _)
    · rfl
  · rw [late_outcomeFrom, Outcome.without, late_outcomeFrom]
    simp only [List.countP_cons, List.countP_nil, hcount, hsum]
  · rfl

end Aggregates

section Extrema

variable [Amount V]

theorem Plan.run_map_emit {α : Type} (now : Nat) (point : α → Point V) (xs : List α)
    (tracker : Tracker V) :
    run now (xs.map fun x => .emit (point x)) tracker = (⟨xs.map point, 0, []⟩, tracker) := by
  induction xs with
  | nil => rfl
  | cons x rest ih =>
    rw [List.map_cons, run_cons]
    show (_ ++ (run now (rest.map _) tracker).1, (run now (rest.map _) tracker).2) = _
    rw [ih]
    rfl

/-- Without aggregations, the statistics of a histogram lose the extrema and nothing else. -/
theorem Stats.sheds (settings : Settings) (labels : Labels) (time : Nat)
    (temporality : Temporality) (stats : Stats V) :
    Plan.Sheds (labels.named [.min, .max])
      (stats.plan { settings with bucketMode := .omitted, aggregations := false } labels time
        temporality)
      (stats.plan { settings with bucketMode := .omitted, aggregations := true } labels time
        temporality) := by
  let a := Aggregates.of { settings with bucketMode := .omitted, aggregations := true } labels time
    stats
  have hremarks : Plan.Sheds (labels.named [.min, .max]) (stats.remarks labels)
      (stats.remarks labels) := by
    refine .same (fun step hs other ho => ?_) fun sample hm => ?_
    · rw [(Stats.labels_of_mem_remarks hs).1] at ho
      exact absurd ho List.not_mem_nil
    · obtain ⟨step, hs, hm⟩ := List.mem_flatMap.mp hm
      rw [(Stats.labels_of_mem_remarks hs).2] at hm
      exact absurd hm List.not_mem_nil
  refine hremarks.append ?_
  cases temporality with
  | delta =>
    show Plan.Sheds _ (a.plain.values.map fun e => .emit (a.point e.1 e.2))
      (a.values.map fun e => .emit (a.point e.1 e.2))
    refine ⟨fun _ now => ?_, fun h now => ?_⟩
    · rw [Plan.run_map_emit, Plan.run_map_emit]
      exact congrArg (Outcome.mk · 0 []) a.points_plain
    · rw [Plan.run_map_emit, Plan.run_map_emit]
      exact h
  | cumulative =>
    show Plan.Sheds _ [.aggregate a.plain] [.aggregate a]
    refine ⟨fun h now => ?_, fun h now => ?_⟩
    · rw [Plan.run_cons, Plan.run_cons, Step.fst_run, Step.fst_run, a.outcomeFrom_plain h,
        Outcome.without_append]
      rfl
    · refine h.run now fun series hs => ?_
      show observationsOf series (a.plain.samples ++ []) = observationsOf series (a.samples ++ [])
      rw [List.append_nil, List.append_nil, a.observationsOf_plain hs]

theorem Labels.name_suffixed_not_mem_named {labels : Labels} {word : String}
    {statistics : List Statistic} (h : ∀ statistic ∈ statistics, statistic.name ≠ word) :
    (labels.suffixed word).name ∉ labels.named statistics := by
  intro hn
  obtain ⟨statistic, hm, he⟩ := List.mem_map.mp hn
  exact h statistic hm (name_suffixed_inj he)

/-- A summary has no extrema. -/
theorem Summary.avoids_extrema (settings : Settings) (labels : Labels) (time : Nat)
    (summary : Summary V) :
    Plan.Avoids (summary.plan settings labels time) (labels.named [.min, .max]) := by
  intro step hs other ho
  have hword (word : String) (h : ∀ statistic ∈ [Statistic.min, .max], statistic.name ≠ word) :
      (labels.suffixed word).name ∉ labels.named [.min, .max] :=
    Labels.name_suffixed_not_mem_named h
  have hplanned := Summary.planned_of_mem hs
  cases hplanned with
  | notice => exact absurd ho List.not_mem_nil
  | statistic hstats | aggregate hstats | distribution _ hstats => exact nomatch hstats
  | summaryCount =>
    rw [List.mem_singleton.mp ho]
    exact hword "count" (by decide)
  | summarySum =>
    rw [List.mem_singleton.mp ho]
    exact hword "sum" (by decide)
  | quantile =>
    rw [List.mem_singleton.mp ho]
    exact hword "quantile" (by decide)

/-- Without buckets and aggregations, no sample is of an extremum. -/
theorem Arrival.plain_of_mem_samples {settings : Settings} {arrival : Arrival V}
    (hmode : settings.bucketMode = .omitted) (hoff : settings.aggregations = false)
    {sample : Sample V} (h : sample ∈ (arrival.plan settings).samples) : sample.series.Plain := by
  have hs : settings.statistics = [.count, .sum] := by rw [Settings.statistics, hoff]; rfl
  exact ⟨not_endsIn hmode (by decide) (by rw [hs]; decide) h,
    not_endsIn hmode (by decide) (by rw [hs]; decide) h⟩

/-- Without buckets, the lack of aggregations costs the extrema and nothing else. -/
theorem Arrival.sheds (settings : Settings) (arrival : Arrival V) :
    Plan.Sheds (arrival.labels.named [.min, .max])
      (arrival.plan { settings with bucketMode := .omitted, aggregations := false })
      (arrival.plan { settings with bucketMode := .omitted, aggregations := true }) := by
  obtain ⟨labels, time, value⟩ := arrival
  have hnil (names : List String) : Plan.Sheds names ([] : Plan V) [] :=
    .same (fun _ h => absurd h List.not_mem_nil) fun _ h => absurd h List.not_mem_nil
  cases value with
  | histogram temporality histogram =>
    exact (Stats.sheds settings labels time temporality histogram.stats).append (hnil _)
  | exponential histogram =>
    exact (Stats.sheds settings labels time .delta histogram.stats).append (hnil _)
  | summary summary =>
    have hplain : ∀ sample ∈ (plan { settings with bucketMode := .omitted, aggregations := false }
        ⟨labels, time, .summary summary⟩).samples, sample.series.Plain :=
      fun sample hm => plain_of_mem_samples rfl rfl hm
    exact .same (summary.avoids_extrema _ labels time) hplain

/-- Without buckets, aggregations only add the extrema. -/
theorem coupled_aggregations (settings : Settings) :
    Coupled (V := V) { settings with bucketMode := .omitted, aggregations := false }
      { settings with bucketMode := .omitted, aggregations := true }
      (Tracker.AlikeOn Series.Plain)
      fun arrival off on => off = on.without (arrival.labels.named [.min, .max]) where
  sweep h now := h.sweep now
  outcome h now arrival := (arrival.sheds settings).outcome h now
  tracker h now arrival := (arrival.sheds settings).tracker h now

end Extrema

/-! ## Quantiles -/

section Quantiles

variable [Amount V]

/-- The gauges of the finite quantiles of a summary; other data points have none. -/
def Arrival.quantiles (arrival : Arrival V) : List (Point V) :=
  match arrival.value with
  | .summary summary =>
    (summary.quantiles.filter fun entry => Amount.finite entry.2).map fun entry =>
      .at arrival.time
        ((arrival.labels.suffixed "quantile").tagged
          [.pair "quantile" (Decimal.text entry.1)])
        (.gauge entry.2)
  | _ => []

/-- The steps for quantiles give the gauges, and leave the tracker as it was. -/
theorem Summary.run_quantileSteps (labels : Labels) (time now : Nat) (entries : List (Float × V))
    (tracker : Tracker V) :
    (Plan.run now (entries.map (quantileStep labels time)) tracker).1.points =
        ((entries.filter fun entry => Amount.finite entry.2).map fun entry =>
          .at time ((labels.suffixed "quantile").tagged
            [.pair "quantile" (Decimal.text entry.1)]) (.gauge entry.2)) ∧
      (Plan.run now (entries.map (quantileStep labels time)) tracker).1.late = 0 ∧
      (Plan.run now (entries.map (quantileStep labels time)) tracker).2 = tracker := by
  induction entries with
  | nil => exact ⟨rfl, rfl, rfl⟩
  | cons entry rest ih =>
    obtain ⟨hpoints, hlate, htracker⟩ := ih
    rw [List.map_cons, Plan.run_cons, quantileStep, List.filter_cons]
    by_cases hfinite : Amount.finite entry.2 = true
    · rw [if_pos hfinite, if_pos hfinite]
      exact ⟨congrArg (_ :: ·) hpoints, (Nat.zero_add _).trans hlate, htracker⟩
    · rw [if_neg hfinite, if_neg hfinite]
      exact ⟨hpoints, (Nat.zero_add _).trans hlate, htracker⟩

theorem Summary.plan_with_quantiles (settings : Settings) (labels : Labels) (time : Nat)
    (summary : Summary V) :
    summary.plan { settings with quantiles := true } labels time =
      summary.plan { settings with quantiles := false } labels time ++
        summary.quantiles.map (quantileStep labels time) := rfl

/-- Quantiles only add their gauges, and leave no trace in the tracker. -/
theorem coupled_quantiles (settings : Settings) :
    Coupled (V := V) { settings with quantiles := true } { settings with quantiles := false } Eq
      fun arrival on off => on.points = off.points ++ arrival.quantiles ∧ on.late = off.late where
  sweep h now := congrArg (·.sweep now) h
  outcome {left right} h now arrival := by
    subst h
    obtain ⟨labels, time, value⟩ := arrival
    cases value with
    | histogram | exponential => exact ⟨(List.append_nil _).symm, rfl⟩
    | summary summary =>
      simp only [Arrival.plan, Aggregated.plan, Summary.plan_with_quantiles, Plan.run_append]
      obtain ⟨hpoints, hlate, -⟩ := Summary.run_quantileSteps labels time now summary.quantiles
        (Plan.run now (summary.plan { settings with quantiles := false } labels time) left).2
      exact ⟨congrArg (_ ++ ·) hpoints, congrArg (_ + ·) hlate⟩
  tracker {left right} h now arrival := by
    subst h
    obtain ⟨labels, time, value⟩ := arrival
    cases value with
    | histogram | exponential => rfl
    | summary summary =>
      simp only [Arrival.plan, Aggregated.plan, Summary.plan_with_quantiles, Plan.run_append]
      exact (Summary.run_quantileSteps labels time now summary.quantiles _).2.2

end Quantiles

namespace Station

variable [Amount V]

/-- The options of histograms and summaries are orthogonal. With aggregations, every mode reports
the same statistics; without buckets, aggregations only add extrema; and quantiles only add their
gauges. Each holds of every data point of every run. -/
theorem options_are_orthogonal (settings : Settings) (start : Station V)
    (happenings : List (Happening V)) :
    (∀ mode other : BucketMode,
      Matched (fun arrival a b =>
          a.named (arrival.labels.named Statistic.all) =
            b.named (arrival.labels.named Statistic.all))
        (start.outcomes { settings with bucketMode := mode, aggregations := true } happenings)
        (start.outcomes { settings with bucketMode := other, aggregations := true } happenings)) ∧
    Matched (fun arrival off on => off = on.without (arrival.labels.named [.min, .max]))
      (start.outcomes { settings with bucketMode := .omitted, aggregations := false } happenings)
      (start.outcomes { settings with bucketMode := .omitted, aggregations := true } happenings) ∧
    Matched (fun arrival on off =>
        on.points = off.points ++ arrival.quantiles ∧ on.late = off.late)
      (start.outcomes { settings with quantiles := true } happenings)
      (start.outcomes { settings with quantiles := false } happenings) := by
  refine ⟨fun mode other => ?_, ?_, ?_⟩
  · exact (coupled_modes settings mode other).matched rfl (.refl _ _) happenings
  · exact (coupled_aggregations settings).matched rfl (.refl _ _) happenings
  · exact (coupled_quantiles settings).matched rfl rfl happenings

end Station

end MetricPoints
