import MetricPoints.Proofs.Range

/-
  Input that is not finite poisons nothing. All that the tracker stores was submitted, and only
  finite numbers are (`Converter.recalls_serve`), so that every later total is compared with a
  finite one. More than that, which numbers that are not finite come in, and whether any do, makes
  no difference: measured values that agree on what is finite of them (`Measured.Agrees`) are the
  same work (`MetricData.working_of_agrees`).

  Main statement: `Converter.non_finite_input_poisons_nothing`.
-/

namespace MetricPoints

variable {V : Type} [Amount V]

/-! ## What is finite of a measured value -/

/-- The amount of a number, if the number is there and finite. -/
def Number.usable? (value : Option (Number V)) : Option V :=
  (value.map Number.amount).filter Amount.finite

/-- The quantiles with finite values. -/
def Summary.usableQuantiles (summary : Summary V) : List (Float × V) :=
  summary.quantiles.filter fun entry => Amount.finite entry.2

/-- Measured values with the same counts, bounds and finite numbers. Where one of them has a number
that is not finite, the other one has any such number, or none where it may be missing. -/
inductive Measured.Agrees : Measured V → Measured V → Prop where
  | gauge {value other : Option (Number V)} (h : Number.usable? value = Number.usable? other) :
      Agrees (.gauge value) (.gauge other)
  | sum {code : Int} {monotonic : Bool} {value other : Option (Number V)}
      (h : Number.usable? value = Number.usable? other) :
      Agrees (.sum code monotonic value) (.sum code monotonic other)
  | histogram {code : Int} {histogram : Histogram V} {stats : Stats V}
      (h : histogram.stats.finite = stats.finite) :
      Agrees (.histogram code histogram) (.histogram code { histogram with stats })
  | exponential {code : Int} {histogram : ExponentialHistogram V} {stats : Stats V}
      (h : histogram.stats.finite = stats.finite) :
      Agrees (.exponential code histogram) (.exponential code { histogram with stats })
  | summary {summary other : Summary V} (hcount : summary.count = other.count)
      (hsum : (some summary.sum).filter Amount.finite = (some other.sum).filter Amount.finite)
      (hquantiles : summary.usableQuantiles = other.usableQuantiles) :
      Agrees (.summary summary) (.summary other)

section Work

variable {settings : Settings} {labels : Labels} {time : Nat}

/-- The work for a number goes by what is usable of it. -/
theorem Number.working_steps {use : V → Step V} (hworks : ∀ amount, (use amount).works = true)
    (value : Option (Number V)) :
    Plan.working (value.toList.map (Number.step labels use)) =
      (Number.usable? value).toList.map use := by
  cases value with
  | none => rfl
  | some number =>
    show Plan.working [Number.step labels use number] =
      ((some number.amount).filter Amount.finite).toList.map use
    rw [Number.step, Option.filter_some]
    split
    · exact List.filter_eq_self.mpr fun step hs => List.mem_singleton.mp hs ▸ hworks _
    · rfl

theorem Stats.working_remarks (stats : Stats V) :
    Plan.working (stats.remarks labels) = [] := by
  refine List.filter_eq_nil_iff.mpr fun step hs => ?_
  obtain ⟨remark, rfl⟩ := remark_of_mem_remarks hs
  exact Bool.false_ne_true

section Statistics

variable {stats other : Stats V} (h : stats.finite = other.finite)

include h

theorem Aggregates.of_congr :
    Aggregates.of settings labels time stats = Aggregates.of settings labels time other := by
  rw [of, h, of]

theorem Stats.working_plan_congr (temporality : Temporality) :
    Plan.working (stats.plan settings labels time temporality) =
      Plan.working (other.plan settings labels time temporality) := by
  rw [plan, plan]
  split
  · simp only [Plan.working_append, working_remarks, Aggregates.of_congr h]
  · rfl

theorem Stats.working_distributionPlan_congr (temporality : Temporality) (layout : Layout) :
    Plan.working (stats.distributionPlan labels time temporality layout) =
      Plan.working (other.distributionPlan labels time temporality layout) := by
  simp only [distributionPlan, Plan.working_append, working_remarks, h]

end Statistics

theorem Histogram.working_plan_congr {histogram : Histogram V} {stats : Stats V}
    (h : histogram.stats.finite = stats.finite) (temporality : Temporality) :
    Plan.working (histogram.plan settings labels time temporality) =
      Plan.working (Histogram.plan settings labels time temporality { histogram with stats }) := by
  rw [plan, Plan.working_append, Stats.working_plan_congr h, plan, Plan.working_append]
  congr 1
  cases settings.bucketMode with
  | omitted | counters => rfl
  | distributions => exact Stats.working_distributionPlan_congr h temporality _

theorem ExponentialHistogram.working_plan_congr {histogram : ExponentialHistogram V}
    {stats : Stats V} (h : histogram.stats.finite = stats.finite) :
    Plan.working (histogram.plan settings labels time) =
      Plan.working (ExponentialHistogram.plan settings labels time { histogram with stats }) := by
  rw [plan, Plan.working_append, Stats.working_plan_congr h, plan, Plan.working_append]
  congr 1
  split
  · rfl
  · exact Stats.working_distributionPlan_congr h .delta _

namespace Summary

theorem working_sumStep (sum : V) :
    Plan.working [sumStep labels time sum] =
      ((some sum).filter Amount.finite).toList.map fun value =>
        .track .part ⟨labels.suffixed "sum", time, value⟩ := by
  rw [sumStep, Option.filter_some]
  split <;> rfl

theorem working_quantileSteps (entries : List (Float × V)) :
    Plan.working (entries.map (quantileStep labels time)) =
      (entries.filter fun entry => Amount.finite entry.2).map (quantileStep labels time) := by
  rw [Plan.working, List.filter_map]
  refine congrArg _ (List.filter_congr fun entry _ => ?_)
  show (quantileStep labels time entry).works = Amount.finite entry.2
  rw [quantileStep]
  split
  · rename_i hfinite
    exact hfinite.symm
  · rename_i hfinite
    exact (Bool.eq_false_of_not_eq_true hfinite).symm

theorem working_plan_congr {summary other : Summary V} (hcount : summary.count = other.count)
    (hsum : (some summary.sum).filter Amount.finite = (some other.sum).filter Amount.finite)
    (hquantiles : summary.usableQuantiles = other.usableQuantiles) :
    Plan.working (summary.plan settings labels time) =
      Plan.working (other.plan settings labels time) := by
  -- the quantiles are filtered only where they are reported
  have hparts (summary : Summary V) : Plan.working (summary.plan settings labels time) =
      [.track .part ⟨labels.suffixed "count", time, Amount.ofNat summary.count⟩] ++
        Plan.working [sumStep labels time summary.sum] ++
          if settings.quantiles then summary.usableQuantiles.map (quantileStep labels time)
          else [] := by
    have hplan : summary.plan settings labels time =
        [.track .part ⟨labels.suffixed "count", time, Amount.ofNat summary.count⟩] ++
          [sumStep labels time summary.sum] ++
            if settings.quantiles then summary.quantiles.map (quantileStep labels time)
            else [] := rfl
    rw [hplan, Plan.working_append, Plan.working_append]
    congr 1
    split
    · exact working_quantileSteps summary.quantiles
    · rfl
  rw [hparts, hparts, working_sumStep, working_sumStep, hcount, hsum, hquantiles]

end Summary

omit [Amount V] in
/-- Of one data point it is decided whether a value was recorded, and then its plan is made. -/
theorem working_pointPlans_congr {α : Type} {plan : DataPoint α → Plan V}
    {point other : DataPoint α} (hflags : point.flags = other.flags)
    (h : (plan point).working = (plan other).working) :
    (pointPlans plan [point]).working = (pointPlans plan [other]).working := by
  have hrecorded : point.recorded = other.recorded := by
    rw [DataPoint.recorded, hflags, DataPoint.recorded]
  unfold pointPlans
  rw [List.filter_singleton, List.filter_singleton, hrecorded]
  cases other.recorded with
  | true =>
    show Plan.working ([point].flatMap plan) = Plan.working ([other].flatMap plan)
    rw [List.flatMap_singleton, List.flatMap_singleton, h]
  | false => rfl

section Numbers

variable {value other : Option (Number V)} (h : Number.usable? value = Number.usable? other)
  {attributes : List Attribute} {flags : Nat}

include h

theorem NumberPoint.working_plan_congr (reading : V → Reading V) :
    (plan reading labels ⟨time, attributes, flags, value⟩).working =
      (plan reading labels ⟨time, attributes, flags, other⟩).working := by
  simp only [plan]
  rw [Number.working_steps fun _ => rfl, Number.working_steps fun _ => rfl, h]

theorem NumberPoint.working_totalPlan_congr :
    (totalPlan labels ⟨time, attributes, flags, value⟩).working =
      (totalPlan labels ⟨time, attributes, flags, other⟩).working := by
  simp only [totalPlan]
  rw [Number.working_steps fun _ => rfl, Number.working_steps fun _ => rfl, h]

end Numbers

end Work

/-- Data points that agree on what is finite are the same work. -/
theorem MetricData.working_of_agrees (settings : Settings) (labels : Labels)
    (point : DataPoint (Measured V)) {value : Measured V} (h : point.value.Agrees value) :
    Plan.working ((single point).plan settings labels) =
      Plan.working ((single { point with value }).plan settings labels) := by
  obtain ⟨time, attributes, flags, own⟩ := point
  cases h with
  | gauge h => exact working_pointPlans_congr rfl (NumberPoint.working_plan_congr h .gauge)
  | @sum code monotonic value other h =>
    simp only [single, DataPoint.map, MetricData.plan]
    cases Temporality.ofCode? code with
    | none => rfl
    | some temporality =>
      cases temporality with
      | delta => exact working_pointPlans_congr rfl (NumberPoint.working_plan_congr h .count)
      | cumulative =>
        simp only
        split
        · exact working_pointPlans_congr rfl (NumberPoint.working_totalPlan_congr h)
        · exact working_pointPlans_congr rfl (NumberPoint.working_plan_congr h .gauge)
  | @histogram code histogram stats h =>
    simp only [single, DataPoint.map, MetricData.plan]
    cases Temporality.ofCode? code with
    | none => rfl
    | some temporality =>
      exact working_pointPlans_congr rfl (Histogram.working_plan_congr h temporality)
  | @exponential code histogram stats h =>
    simp only [single, DataPoint.map, MetricData.plan]
    cases Temporality.ofCode? code with
    | none => rfl
    | some temporality =>
      cases temporality with
      | cumulative => rfl
      | delta => exact working_pointPlans_congr rfl (ExponentialHistogram.working_plan_congr h)
  | summary hcount hsum hquantiles =>
    exact working_pointPlans_congr rfl (Summary.working_plan_congr hcount hsum hquantiles)

/-! ## Batches and calls -/

/-- Data points in the same place, at the same time, whose values agree. -/
def Site.Agrees (site other : Site V) : Prop :=
  ∃ value, site.point.value.Agrees value ∧
    other = { site with point := { site.point with value } }

/-- Batches whose data points agree one by one. -/
def Batch.Agrees (batch other : Batch V) : Prop :=
  List.Forall₂ Site.Agrees batch.sites other.sites

theorem Batch.working_of_agrees {batch other : Batch V} (h : batch.Agrees other)
    (settings : Settings) :
    (Batch.plan settings batch).working = (Batch.plan settings other).working := by
  rw [working_plan, working_plan]
  unfold Agrees at h
  generalize batch.sites = sites at h ⊢
  generalize other.sites = others at h ⊢
  induction h with
  | nil => rfl
  | cons hsite _ ih =>
    obtain ⟨value, hvalue, rfl⟩ := hsite
    rw [List.flatMap_cons, List.flatMap_cons, ih, Site.working_alone, Site.working_alone]
    exact congrArg (· ++ _) (MetricData.working_of_agrees settings _ _ hvalue)

/-- Calls at the same time, with batches that agree. -/
inductive Call.Agrees : Call V → Call V → Prop where
  | convert {now : Nat} {batch other : Batch V} (h : batch.Agrees other) :
      Agrees (.convert now batch) (.convert now other)
  | sweep (now : Nat) : Agrees (.sweep now) (.sweep now)
  | fallback (source : Except String Source) : Agrees (.fallback source) (.fallback source)

namespace Converter

/-- Calls that agree give the same points, find as many samples late, and leave the same tracker. -/
theorem serve_of_agrees {calls others : List (Call V)} (h : List.Forall₂ Call.Agrees calls others)
    {converter other : Converter V} (hsettings : converter.settings = other.settings)
    (htracker : converter.tracker = other.tracker) :
    List.Forall₂ (fun a b => a.points = b.points ∧ a.report.late = b.report.late)
        (converter.serve calls).1 (other.serve others).1 ∧
      (converter.serve calls).2.tracker = (other.serve others).2.tracker := by
  induction h generalizing converter other with
  | nil => exact ⟨.nil, htracker⟩
  | cons hcall _ ih =>
    cases hcall with
    | sweep now => exact ih hsettings (congrArg (·.sweep now) htracker)
    | fallback source =>
      exact ih (congrArg (fun settings : Settings => { settings with fallback := source })
        hsettings) htracker
    | @convert now batch batch' hbatch =>
      have hrun := Plan.run_of_working_eq (Batch.working_of_agrees hbatch converter.settings) now
        converter.tracker
      have hother : Plan.run now (Batch.plan converter.settings batch') converter.tracker =
          Plan.run now (Batch.plan other.settings batch') other.tracker := by
        rw [hsettings, htracker]
      rw [hother] at hrun
      obtain ⟨hpoints, hlate, hafter⟩ := hrun
      have hsettings' : (converter.convert now batch).2.settings =
          (other.convert now batch').2.settings := by
        rw [settings_convert, settings_convert, hsettings]
      have htracker' : (converter.convert now batch).2.tracker =
          (other.convert now batch').2.tracker := by
        rw [tracker_convert_eq_run, tracker_convert_eq_run]
        exact hafter
      have hfirst : (converter.convert now batch).1.points = (other.convert now batch').1.points ∧
          (converter.convert now batch).1.report.late =
            (other.convert now batch').1.report.late := by
        rw [fst_convert, fst_convert]
        exact ⟨hpoints, hlate⟩
      obtain ⟨hrest, hlast⟩ := ih hsettings' htracker'
      exact ⟨.cons hfirst hrest, hlast⟩

end Converter

/-! ## What a finite sample finds -/

section Sound

variable (hcounts : FiniteCounts V) {tracker : Tracker V} {past : List (Sample V)}

include hcounts

/-- In the middle of a batch, too, all that is stored was submitted, and is finite. -/
theorem Tracker.Recalls.within (h : tracker.Recalls past) (now : Nat) {settings : Settings}
    {batch : Batch V} (hfits : batch.fits = true) {done : Plan V}
    (hdone : done <+: Batch.plan settings batch) :
    (Plan.run now done tracker).2.Recalls (past ++ done.samples) := by
  have hsound : ∀ step ∈ done.working, step.Sound := fun step hs =>
    Batch.sound hcounts hfits step ((hdone.filter _).subset hs)
  rw [← (Plan.run_working now done tracker).2, ← Plan.samples_working]
  exact (Plan.derived hsound h now).2

/-- Whatever is served, all that is stored was submitted, and is finite. -/
theorem Converter.recalls_serve {converter : Converter V} (h : converter.tracker.Recalls past)
    {calls : List (Call V)} (hfits : ∀ call ∈ calls, call.fits = true) :
    (converter.serve calls).2.tracker.Recalls (past ++ converter.settings.submitted calls) := by
  induction calls generalizing converter past with
  | nil => rwa [Settings.submitted, List.append_nil]
  | cons call rest ih =>
    obtain ⟨hcall, hrest⟩ := List.forall_mem_cons.mp hfits
    cases call with
    | convert now batch =>
      rw [Settings.submitted, ← List.append_assoc]
      have hlater := @ih _ (converter.convert now batch).2 (derived_convert hcounts h now hcall).2
        hrest
      rwa [Converter.settings_convert] at hlater
    | sweep now =>
      exact @ih _ { converter with tracker := converter.tracker.sweep now } (h.sweep now) hrest
    | fallback source =>
      exact @ih _ { converter with settings := { converter.settings with fallback := source } } h
        hrest

end Sound

/-! ## Numbers -/

open Binary64

/-- What is finite or infinite is a number. -/
theorem isNaN_eq_false {x : Float} (h : x.isFinite = true ∨ x.isInf = true) :
    x.isNaN = false := by
  replace h : x.toModel.unpack.isFinite = true ∨ x.toModel.unpack.isInf = true := h
  show x.toModel.unpack.isNaN = false
  cases hx : x.toModel.unpack with
  | notANumber =>
    rw [hx] at h
    exact absurd h (by decide)
  | zero | finite | infinity => rfl

/-- What is in range is a number. -/
theorem Point.InRange.isNaN {samples : List (Sample Float)} {point : Point Float}
    (h : point.InRange samples) : ∀ amount ∈ point.reading.amounts, amount.isNaN = false := by
  intro amount ha
  cases h with
  | finite h => exact isNaN_eq_false (.inl (h amount ha))
  | count _ _ hinfinite _ | rate _ _ hinfinite _ =>
    rw [List.mem_singleton.mp ha]
    exact isNaN_eq_false (.inr hinfinite)

/-- Every value that is known is finite. So whatever finite comes next changes it by a number, and
moves it exactly if it is another number. -/
structure Tracker.Unpoisoned (tracker : Tracker Float) : Prop where
  finite : ∀ series entry, tracker.entries.get? series = some entry →
    entry.value.isFinite = true
  increase : ∀ sample : Sample Float, sample.value.isFinite = true → ∀ increase,
    (tracker.changeFor sample).increase? = some increase → increase.isNaN = false
  rate : ∀ sample : Sample Float, sample.value.isFinite = true → sample.time < UInt64.size →
    ∀ rate, (tracker.changeFor sample).rate? = some rate → rate.isNaN = false
  moved : ∀ sample : Sample Float, sample.value.isFinite = true → ∀ entry,
    tracker.entries.get? sample.series = some entry → entry.time < sample.time →
      ((tracker.changeFor sample).moved = true ↔ exact sample.value ≠ exact entry.value)

theorem Tracker.Recalls.unpoisoned {tracker : Tracker Float} {past : List (Sample Float)}
    (h : tracker.Recalls past) : tracker.Unpoisoned := by
  have hstored {series : Series} {entry : Entry Float}
      (he : tracker.entries.get? series = some entry) :
      tracker.stored? series = some entry.stored := congrArg (Option.map Entry.stored) he
  have hfinite (series : Series) (entry : Entry Float)
      (he : tracker.entries.get? series = some entry) : entry.value.isFinite = true := by
    obtain ⟨sample, -, -, hsame, hsample⟩ := h _ _ (hstored he)
    have hvalue : sample.value = entry.value := congrArg Observation.value hsame
    exact hvalue ▸ hsample
  refine ⟨hfinite, fun sample hs increase hi => ?_, fun sample hs ht rate hr => ?_,
    fun sample hs entry he ht => ?_⟩
  · obtain ⟨earlier, hfollows, hi⟩ := h.follows_of_increase (List.mem_singleton_self sample) hs hi
    exact isNaN_eq_false ((hfollows.increase_cases hi).imp_right And.left)
  · obtain hc | hc | ⟨earlier, hfollows, hc⟩ :=
        h.changeFor_cases (List.mem_singleton_self sample) hs <;> rw [hc] at hr
    · exact nomatch hr
    · exact nomatch hr
    · exact isNaN_eq_false ((hfollows.rate_cases ht hr).imp_right And.left)
  · rw [changeFor_of_stored sample (hstored he) ht]
    exact bne_iff_exact_ne hs (hfinite _ _ he)

namespace Converter

/-- After any calls, and in the middle of any batch that comes next, every value that is known is
finite. All that was emitted are numbers. And any calls that agree with those served on what is
finite have the same points, find as many samples late, and leave the same tracker. -/
theorem non_finite_input_poisons_nothing {settings : Settings} {observer : Observer}
    {counting runtime : Bool} {converter : Converter Float}
    (hstart : start settings observer counting runtime = .ok converter)
    {calls : List (Call Float)} (hfits : ∀ call ∈ calls, call.fits = true) :
    let served := converter.serve calls
    served.2.tracker.Unpoisoned ∧
      (∀ now batch, batch.fits = true → ∀ done, done <+: Batch.plan served.2.settings batch →
        (Plan.run now done served.2.tracker).2.Unpoisoned) ∧
      (∀ converted ∈ served.1, ∀ point ∈ converted.points,
        ∀ amount ∈ point.reading.amounts, amount.isNaN = false) ∧
      ∀ others, List.Forall₂ Call.Agrees calls others →
        List.Forall₂ (fun a b => a.points = b.points ∧ a.report.late = b.report.late)
            served.1 (converter.serve others).1 ∧
          served.2.tracker = (converter.serve others).2.tracker := by
  intro served
  have hempty : converter.tracker.Recalls [] := by
    unfold start at hstart
    split at hstart
    · cases hstart
      exact .empty _ _
    · exact nomatch hstart
  have hrecalls := recalls_serve finiteCounts_float hempty hfits
  refine ⟨hrecalls.unpoisoned, fun now batch hbatch done hdone =>
    (hrecalls.within finiteCounts_float now hbatch hdone).unpoisoned,
    fun converted hc point hp =>
      (derived_of_start finiteCounts_float hstart hfits hc hp).inRange.isNaN,
    fun others hothers => serve_of_agrees hothers rfl rfl⟩

/-- A converter that aggregates. -/
def aggregating : Converter Float :=
  ⟨{ Settings.default with aggregations := true }, .empty (3600 * Amount.second), .collector,
    false, .zero⟩

/-- As many values of one as seconds have passed, and some maximum. -/
def maximumAt (seconds : Nat) (max : Option Float) : Call Float :=
  .convert seconds [⟨[], [⟨none, [⟨"latency", .histogram 2
    [⟨seconds * Amount.second, [], 0, ⟨⟨seconds, some 1, none, max⟩, [], []⟩⟩]⟩]⟩]⟩]

/-- Three reports, of which the second one has the given maximum. -/
def maximumBetween (max : Option Float) : List (Call Float) :=
  [maximumAt 1 (some 5), maximumAt 2 max, maximumAt 3 (some 6)]

theorem agrees_maximumBetween :
    List.Forall₂ Call.Agrees (maximumBetween (some (0 / 0))) (maximumBetween none) := by
  have hcall {seconds : Nat} {max other : Option Float}
      (h : max.filter Amount.finite = other.filter Amount.finite) :
      (maximumAt seconds max).Agrees (maximumAt seconds other) := by
    have hstats : Stats.finite ⟨seconds, some 1, none, max⟩ =
        Stats.finite ⟨seconds, some 1, none, other⟩ := congrArg (Stats.mk seconds _ _) h
    exact .convert (.cons ⟨_, .histogram hstats, rfl⟩ .nil)
  exact .cons (hcall rfl) (.cons (hcall (by decide +kernel)) (.cons (hcall rfl) .nil))

/-- The last maximum is told although the one before it is not a number. -/
theorem maximum_after_no_number :
    let served := aggregating.serve (maximumBetween (some (0 / 0)))
    served.2.tracker.Unpoisoned ∧
      (served.1.flatMap Converted.points).filterMap (fun point =>
        if point.labels.name = "latency.max" then point.reading.scalar? else none) = [6] ∧
      List.Forall₂ (fun a b => a.points = b.points ∧ a.report.late = b.report.late) served.1
        (aggregating.serve (maximumBetween none)).1 := by
  intro served
  have hstart : start { Settings.default with aggregations := true } .collector false true =
      .ok aggregating := rfl
  have hfits : ∀ call ∈ maximumBetween (some (0 / 0)), call.fits = true := by decide
  obtain ⟨hunpoisoned, -, -, hagrees⟩ := non_finite_input_poisons_nothing hstart hfits
  exact ⟨hunpoisoned, by decide +kernel, (hagrees _ agrees_maximumBetween).1⟩

end Converter

end MetricPoints
