import MetricPoints.Proofs.Planned
import MetricPoints.Proofs.Reported

/-
  What the numbers in points are made of. Whatever comes in is checked to be finite before it is
  emitted or submitted, and counts are 64-bit numbers (`Batch.fits`), so that all samples are
  finite. A tracker only stores what was sampled (`Tracker.Recalls`), so that every count or rate
  that is computed is that of one sample after another of the same series (`Follows`). It is not
  checked again. A sound step gives points derived so (`Step.derived`), and every step that is
  planned is sound (`Planned.sound`).

  Main statement: `Converter.derived_of_start`.
-/

namespace MetricPoints

variable {V : Type}

/-- The sum and the extrema, as far as they are told. -/
def Stats.amounts (stats : Stats V) : List V :=
  stats.sum.toList ++ stats.min.toList ++ stats.max.toList

/-- Says whether the counts of a data point are 64-bit numbers. -/
def Measured.fits : Measured V → Bool
  | gauge _ | sum _ _ _ => true
  | histogram _ h => h.stats.count < UInt64.size && h.counts.all (· < UInt64.size)
  | exponential _ h => h.stats.count < UInt64.size
  | summary s => s.count < UInt64.size

/-- Says whether the counts and times of a batch are 64-bit numbers. -/
def Batch.fits (batch : Batch V) : Bool :=
  batch.sites.all fun site => site.point.time < UInt64.size && site.point.value.fits

/-- Says whether the batch of a call, if there is one, has 64-bit counts and times. -/
def Call.fits : Call V → Bool
  | convert _ batch => batch.fits
  | sweep _ | fallback _ => true

/-- The samples that calls submit, in order, with the settings that hold at the time. -/
def Settings.submitted [Amount V] (settings : Settings) : List (Call V) → List (Sample V)
  | [] => []
  | .convert _ batch :: rest => (Batch.plan settings batch).samples ++ settings.submitted rest
  | .sweep _ :: rest => settings.submitted rest
  | .fallback source :: rest => { settings with fallback := source }.submitted rest

/-- The change from one sample to another. -/
def Sample.changeTo (earlier later : Sample V) : Change V :=
  .step earlier.value later.value (later.time - earlier.time)

variable [Amount V]

/-- Of some samples, one comes after the other and has a later time; both are finite and of one
series. -/
structure Follows (samples : List (Sample V)) (earlier later : Sample V) : Prop where
  order : [earlier, later].Sublist samples
  series : earlier.series = later.series
  time : earlier.time < later.time
  earlier_finite : Amount.finite earlier.value = true
  later_finite : Amount.finite later.value = true

/-- What can be said after some samples: a finite number, or what has changed from one sample to
another, with the labels and the time of the later one. -/
inductive Point.Derived (samples : List (Sample V)) : Point V → Prop where
  | count {time : Nat} {labels : Labels} {value : V} (h : Amount.finite value = true) :
      Derived samples (.at time labels (.count value))
  | gauge {time : Nat} {labels : Labels} {value : V} (h : Amount.finite value = true) :
      Derived samples (.at time labels (.gauge value))
  | distribution {time : Nat} {labels : Labels} {values : Distribution V}
      (h : ∀ value ∈ values.stats.amounts, Amount.finite value = true) :
      Derived samples (.at time labels (.distribution values))
  | increase {earlier later : Sample V} {value : V} (h : Follows samples earlier later)
      (hi : (earlier.changeTo later).increase? = some value) :
      Derived samples (.at later.time later.labels (.count value))
  | rate {earlier later : Sample V} {value : V} (h : Follows samples earlier later)
      (hlt : later.time < UInt64.size) (hr : (earlier.changeTo later).rate? = some value) :
      Derived samples (.at later.time later.labels (.rate value))

theorem Follows.mono {samples more : List (Sample V)} {earlier later : Sample V}
    (h : Follows samples earlier later) (hs : samples.Sublist more) :
    Follows more earlier later :=
  { h with order := h.order.trans hs }

theorem Point.Derived.mono {samples more : List (Sample V)} {point : Point V}
    (h : point.Derived samples) (hs : samples.Sublist more) : point.Derived more := by
  cases h with
  | count h => exact .count h
  | gauge h => exact .gauge h
  | distribution h => exact .distribution h
  | increase h hi => exact .increase (h.mono hs) hi
  | rate h hlt hr => exact .rate (h.mono hs) hlt hr

/-- What a step emits is finite, and so is what it submits, at 64-bit times. -/
def Step.Sound : Step V → Prop
  | emit point => point.Derived []
  | note _ => True
  | track _ sample => Amount.finite sample.value = true ∧ sample.time < UInt64.size
  | aggregate a =>
    ∀ statistic value, a.value? statistic = some value → Amount.finite value = true

/-! ## Steps -/

/-- All that is stored was sampled before, and is finite. -/
abbrev Tracker.Recalls (tracker : Tracker V) (past : List (Sample V)) : Prop :=
  tracker.AllStored fun series held =>
    ∃ sample ∈ past, sample.series = series ∧ sample.observation = held ∧
      Amount.finite sample.value = true

section Steps

variable {tracker : Tracker V} {past samples : List (Sample V)} {step : Step V} {point : Point V}

/-- A sample that changes anything follows on one of those before. -/
theorem Tracker.Recalls.changeFor_cases (h : tracker.Recalls past) {sample : Sample V}
    (hs : sample ∈ samples) (hfinite : Amount.finite sample.value = true) :
    tracker.changeFor sample = .baseline ∨ tracker.changeFor sample = .late ∨
      ∃ earlier, Follows (past ++ samples) earlier sample ∧
        tracker.changeFor sample = earlier.changeTo sample := by
  rw [changeFor_eq]
  split
  · exact .inl rfl
  · rename_i held hheld
    obtain ⟨earlier, hearlier, hseries, rfl, hvalue⟩ := h _ _ hheld
    split
    · exact .inr (.inl rfl)
    · rename_i hlate
      have horder : [earlier, sample].Sublist (past ++ samples) :=
        (List.singleton_sublist.mpr hearlier).append (List.singleton_sublist.mpr hs)
      exact .inr (.inr ⟨earlier, ⟨horder, hseries, Nat.lt_of_not_le hlate, hvalue, hfinite⟩, rfl⟩)

theorem Tracker.Recalls.follows_of_increase (h : tracker.Recalls past) {sample : Sample V}
    (hs : sample ∈ samples) (hfinite : Amount.finite sample.value = true) {increase : V}
    (hi : (tracker.changeFor sample).increase? = some increase) :
    ∃ earlier, Follows (past ++ samples) earlier sample ∧
      (earlier.changeTo sample).increase? = some increase := by
  obtain hc | hc | ⟨earlier, hfollows, hc⟩ := h.changeFor_cases hs hfinite <;> rw [hc] at hi
  · exact nomatch hi
  · exact nomatch hi
  · exact ⟨earlier, hfollows, hi⟩

theorem Role.derived {role : Role} {sample : Sample V} (h : tracker.Recalls past)
    (hfinite : Amount.finite sample.value = true) (htime : sample.time < UInt64.size)
    (hp : point ∈ (role.outcome sample (tracker.changeFor sample)).points) :
    point.Derived (past ++ [sample]) := by
  obtain ⟨reading, hr, rfl⟩ := List.mem_map.mp hp
  replace hr := Option.mem_toList.mp hr
  have hs : sample ∈ [sample] := List.mem_singleton_self sample
  cases role with
  | total | part =>
    obtain ⟨increase, hi, rfl⟩ := Option.map_eq_some_iff.mp hr
    obtain ⟨earlier, hfollows, hi⟩ := h.follows_of_increase hs hfinite hi
    exact .increase hfollows hi
  | rate =>
    obtain ⟨rate, hi, rfl⟩ := Option.map_eq_some_iff.mp hr
    obtain hc | hc | ⟨earlier, hfollows, hc⟩ := h.changeFor_cases hs hfinite <;> rw [hc] at hi
    · exact nomatch hi
    · exact nomatch hi
    · exact .rate hfollows htime hi

theorem Aggregates.derived {a : Aggregates V} (h : tracker.Recalls past)
    (ha : ∀ statistic value, a.value? statistic = some value → Amount.finite value = true)
    (hp : point ∈ (Step.outcomeFrom tracker (.aggregate a)).points) :
    point.Derived (past ++ a.samples) := by
  have hcount (statistic : Statistic)
      (hs : ∀ value : V, statistic.reading value = .count value)
      (hp : point ∈ (a.increase? tracker statistic).toList.map (a.point statistic)) :
      point.Derived (past ++ a.samples) := by
    obtain ⟨increase, hi, rfl⟩ := List.mem_map.mp hp
    obtain ⟨change, hc, hi⟩ := Option.bind_eq_some_iff.mp (Option.mem_toList.mp hi)
    obtain ⟨value, hv, rfl⟩ := Option.map_eq_some_iff.mp hc
    have hmem : a.sampleOf statistic value ∈ a.samples := mem_samples.mpr ⟨_, _, hv, rfl⟩
    obtain ⟨earlier, hfollows, hi⟩ := h.follows_of_increase hmem (ha statistic value hv) hi
    show Point.Derived _ (.at _ _ (statistic.reading increase))
    rw [hs]
    exact .increase hfollows hi
  have hgauge (statistic : Statistic) {moved : Bool}
      (hs : ∀ value : V, statistic.reading value = .gauge value)
      (hp : point ∈ ((a.value? statistic).filter fun _ => moved).toList.map (a.point statistic)) :
      point.Derived (past ++ a.samples) := by
    obtain ⟨value, hv, rfl⟩ := List.mem_map.mp hp
    show Point.Derived _ (.at _ _ (statistic.reading value))
    rw [hs]
    exact .gauge (ha statistic value (Option.filter_eq_some_iff.mp (Option.mem_toList.mp hv)).1)
  rw [points_outcomeFrom] at hp
  split at hp
  · simp only [List.mem_append] at hp
    obtain ((hp | hp) | hp) | hp := hp
    · exact hcount .count (fun _ => rfl) hp
    · exact hcount .sum (fun _ => rfl) hp
    · exact hgauge .min (fun _ => rfl) hp
    · exact hgauge .max (fun _ => rfl) hp
  · exact absurd hp List.not_mem_nil

/-- A sound step gives derived points. -/
theorem Step.derived (hstep : step.Sound) (h : tracker.Recalls past)
    (hp : point ∈ (step.outcomeFrom tracker).points) :
    point.Derived (past ++ step.samples) := by
  cases step with
  | emit other =>
    rw [List.mem_singleton.mp hp]
    exact Point.Derived.mono hstep (List.nil_sublist _)
  | note notice => exact absurd hp List.not_mem_nil
  | track role sample => exact Role.derived h hstep.1 hstep.2 hp
  | aggregate a => exact Aggregates.derived h hstep hp

theorem Step.finite_of_mem_samples (hstep : step.Sound) {sample : Sample V}
    (hs : sample ∈ step.samples) : Amount.finite sample.value = true := by
  cases step with
  | emit | note => exact absurd hs List.not_mem_nil
  | track role other =>
    rw [List.mem_singleton.mp hs]
    exact hstep.1
  | aggregate a =>
    obtain ⟨statistic, value, hv, rfl⟩ := Aggregates.mem_samples.mp hs
    exact hstep statistic value hv

/-- And leaves a tracker that recalls its samples too. -/
theorem Step.recalls (hstep : step.Sound) (h : tracker.Recalls past) (now : Nat) :
    (step.run now tracker).2.Recalls (past ++ step.samples) := by
  have hkept : tracker.Recalls (past ++ step.samples) :=
    h.mono fun series held ⟨sample, hs, hsample⟩ =>
      ⟨sample, List.mem_append_left _ hs, hsample⟩
  exact hkept.observeAll now fun sample hs =>
    ⟨sample, List.mem_append_right _ hs, rfl, rfl, finite_of_mem_samples hstep hs⟩

/-- So does a plan. -/
theorem Plan.derived {plan : Plan V} (hplan : ∀ step ∈ plan, step.Sound)
    (h : tracker.Recalls past) (now : Nat) :
    (∀ point ∈ (run now plan tracker).1.points, point.Derived (past ++ plan.samples)) ∧
      (run now plan tracker).2.Recalls (past ++ plan.samples) := by
  induction plan generalizing tracker past with
  | nil =>
    rw [samples, List.flatMap_nil, List.append_nil]
    exact ⟨fun _ hp => absurd hp List.not_mem_nil, h⟩
  | cons step rest ih =>
    obtain ⟨hstep, hrest⟩ := List.forall_mem_cons.mp hplan
    obtain ⟨hderived, hrecalls⟩ := ih hrest (Step.recalls hstep h now)
    rw [samples_cons, ← List.append_assoc]
    refine ⟨fun point hp => ?_, hrecalls⟩
    rw [run_cons, Outcome.points_append, List.mem_append, step.fst_run] at hp
    rcases hp with hp | hp
    · exact (Step.derived hstep h hp).mono (List.sublist_append_left _ _)
    · exact hderived point hp

end Steps

/-! ## What is planned -/

section Planned

variable {settings : Settings} {base : Labels} {time : Nat}

theorem Stats.finite_of_mem_amounts {stats : Stats V} {value : V}
    (h : value ∈ stats.finite.amounts) : Amount.finite value = true := by
  simp only [amounts, finite, List.mem_append, Option.mem_toList, Option.filter_eq_some_iff] at h
  obtain (h | h) | h := h
  · exact h.2
  · exact h.2
  · exact h.2

omit [Amount V] in
theorem Measured.count_lt_of_fits {measured : Measured V} (h : measured.fits = true)
    {temporality : Temporality} {stats : Stats V}
    (hstats : measured.stats? = some (temporality, stats)) : stats.count < UInt64.size := by
  cases measured with
  | gauge | sum | summary => exact absurd hstats.symm (Option.some_ne_none _)
  | histogram code histogram =>
    obtain ⟨_, -, he⟩ := Option.map_eq_some_iff.mp hstats
    cases he
    exact of_decide_eq_true (Bool.and_eq_true_iff.mp h).1
  | exponential code histogram =>
    simp only [stats?] at hstats
    split at hstats
    · cases hstats
      exact of_decide_eq_true h
    · exact absurd hstats.symm (Option.some_ne_none _)

/-- The amounts of 64-bit counts are finite. -/
def FiniteCounts (V : Type) [Amount V] : Prop :=
  ∀ n < UInt64.size, Amount.finite (Amount.ofNat n : V) = true

variable (hcounts : FiniteCounts V)

include hcounts

theorem Aggregates.finite_of_value? {stats : Stats V} (hlt : stats.count < UInt64.size)
    {statistic : Statistic} {value : V}
    (hv : (Aggregates.of settings base time stats).value? statistic = some value) :
    Amount.finite value = true := by
  have hfiltered {stored : Option V} (h : stored.filter Amount.finite = some value) :
      Amount.finite value = true := (Option.filter_eq_some_iff.mp h).2
  cases statistic with
  | count =>
    cases hv
    exact hcounts _ hlt
  | sum => exact hfiltered hv
  | min =>
    replace hv : (if settings.aggregations then stats.finite.min else none) = some value := hv
    split at hv
    · exact hfiltered hv
    · exact nomatch hv
  | max =>
    replace hv : (if settings.aggregations then stats.finite.max else none) = some value := hv
    split at hv
    · exact hfiltered hv
    · exact nomatch hv

/-- Every step that is planned for a data point with 64-bit counts at a 64-bit time is sound. -/
theorem Planned.sound {measured : Measured V} {step : Step V}
    (h : Planned settings base time measured step) (hfits : measured.fits = true)
    (htime : time < UInt64.size) : step.Sound := by
  cases h with
  | notice => trivial
  | gauge hfinite | standing _ _ hfinite => exact .gauge hfinite
  | count _ hfinite => exact .count hfinite
  | total role _ _ hfinite => exact ⟨hfinite, htime⟩
  | @statistic _ stats statistic value hstats _ hvalue =>
    have hfinite := Aggregates.finite_of_value? hcounts (Measured.count_lt_of_fits hfits hstats)
      hvalue
    show Point.Derived _ (.at _ _ (statistic.reading value))
    cases statistic with
    | count | sum => exact .count hfinite
    | min | max => exact .gauge hfinite
  | aggregate hstats =>
    exact fun statistic value hv =>
      Aggregates.finite_of_value? hcounts (Measured.count_lt_of_fits hfits hstats) hv
  | distribution => exact .distribution fun value hv => Stats.finite_of_mem_amounts hv
  | @bucket _ temporality histogram bucket _ _ hbucket =>
    have hcount : bucket.2 < UInt64.size :=
      of_decide_eq_true (List.all_eq_true.mp (Bool.and_eq_true_iff.mp hfits).2 _
        (List.of_mem_zip hbucket).2)
    cases temporality with
    | delta => exact .count (hcounts _ hcount)
    | cumulative => exact ⟨hcounts _ hcount, htime⟩
  | summaryCount summary => exact ⟨hcounts _ (of_decide_eq_true hfits), htime⟩
  | summarySum hfinite => exact ⟨hfinite, htime⟩
  | quantile _ _ hfinite => exact .gauge hfinite

theorem Batch.sound {batch : Batch V} (hfits : batch.fits = true) :
    ∀ step ∈ (Batch.plan settings batch).working, step.Sound := by
  intro step hs
  rw [working_plan, List.mem_flatMap] at hs
  obtain ⟨site, hsite, hs⟩ := hs
  obtain ⟨htime, hvalue⟩ := Bool.and_eq_true_iff.mp (List.all_eq_true.mp hfits site hsite)
  exact (Site.planned_of_mem hs).sound hcounts hvalue (of_decide_eq_true htime)

end Planned

/-! ## Runs -/

namespace Converter

variable (hcounts : FiniteCounts V) {converter : Converter V} {past : List (Sample V)}

include hcounts

theorem derived_convert (h : converter.tracker.Recalls past) (now : Nat) {batch : Batch V}
    (hfits : batch.fits = true) :
    let samples := past ++ (Batch.plan converter.settings batch).samples
    (∀ point ∈ (converter.convert now batch).1.points, point.Derived samples) ∧
      (converter.convert now batch).2.tracker.Recalls samples := by
  intro samples
  obtain ⟨hp, ht⟩ := Plan.run_working now (Batch.plan converter.settings batch) converter.tracker
  rw [convert_eq]
  show (∀ point ∈ (Plan.run now (Batch.plan converter.settings batch)
    converter.tracker).1.points, point.Derived samples) ∧ (Plan.run now _ _).2.Recalls samples
  rw [← hp, ← ht, show samples = _ ++ _ from rfl, ← Plan.samples_working]
  exact Plan.derived (Batch.sound hcounts hfits) h now

/-- Calls with 64-bit counts and times give points that are derived from what they submit. -/
theorem derived_serve (h : converter.tracker.Recalls past) {calls : List (Call V)}
    (hfits : ∀ call ∈ calls, call.fits = true) {converted : Converted V}
    (hc : converted ∈ (converter.serve calls).1) {point : Point V}
    (hp : point ∈ converted.points) :
    point.Derived (past ++ converter.settings.submitted calls) := by
  induction calls generalizing converter past with
  | nil => exact absurd hc List.not_mem_nil
  | cons call rest ih =>
    obtain ⟨hcall, hrest⟩ := List.forall_mem_cons.mp hfits
    cases call with
    | convert now batch =>
      obtain ⟨hderived, hrecalls⟩ := derived_convert hcounts h now hcall
      rw [Settings.submitted, ← List.append_assoc]
      rcases List.mem_cons.mp hc with rfl | hc
      · exact (hderived point hp).mono (List.sublist_append_left _ _)
      · have hlater := @ih (converter.convert now batch).2 _ hrecalls hrest hc
        rwa [settings_convert] at hlater
    | sweep now =>
      exact @ih { converter with tracker := converter.tracker.sweep now } _ (h.sweep now) hrest hc
    | fallback source =>
      exact @ih { converter with settings := { converter.settings with fallback := source } } _ h
        hrest hc

/-- Whatever a converter gives from its start on is derived from what was submitted to it. -/
theorem derived_of_start {settings : Settings} {observer : Observer} {counting runtime : Bool}
    (hstart : start settings observer counting runtime = .ok converter) {calls : List (Call V)}
    (hfits : ∀ call ∈ calls, call.fits = true) {converted : Converted V}
    (hc : converted ∈ (converter.serve calls).1) {point : Point V}
    (hp : point ∈ converted.points) : point.Derived (settings.submitted calls) := by
  unfold start at hstart
  split at hstart
  · cases hstart
    have hempty : (Tracker.empty (settings.lifetime * Amount.second) : Tracker V).Recalls [] :=
      .empty _ _
    have hderived := derived_serve hcounts hempty hfits hc hp
    rwa [List.nil_append] at hderived
  · exact nomatch hstart

end Converter

end MetricPoints
