import MetricPoints.Proofs.Shares

/-
  Cumulative and delta reporting of the same stream agree. For running totals of a sum the tracker
  holds the last total of the one series (`outcome_run_totals`), in one batch or over many
  (`convertEach_agree`); for histograms see `Share.runEach_agree`.

  Main statement: `totals_agree_with_shares`.
-/

namespace MetricPoints

/-- What a total grew by, both as they were sent, at a time. -/
structure Growth where
  time : Nat
  total : Number Rat
  added : Number Rat

namespace Growth

/-- The total that was reached. -/
def reached (growth : Growth) : Observation Rat := ⟨growth.time, growth.total.amount⟩

/-- The total that was reached at last. -/
def reachedFrom (start : Observation Rat) : List Growth → Observation Rat
  | [] => start
  | growth :: rest => reachedFrom growth.reached rest

/-- Says that totals grow from a start, later and later, by what was added. -/
def Accumulates (start : Observation Rat) : List Growth → Prop
  | [] => True
  | growth :: rest =>
    start.time < growth.time ∧ 0 ≤ growth.added.amount ∧
      growth.total.amount = start.value + growth.added.amount ∧ Accumulates growth.reached rest

theorem accumulates_append {start : Observation Rat} {xs ys : List Growth} :
    Accumulates start (xs ++ ys) ↔
      Accumulates start xs ∧ Accumulates (reachedFrom start xs) ys := by
  induction xs generalizing start with
  | nil => exact ⟨fun h => ⟨trivial, h⟩, And.right⟩
  | cons growth rest ih =>
    simp only [List.cons_append, Accumulates, reachedFrom, ih, and_assoc]

/-- The data point of the total. -/
def totalPoint (attributes : List Attribute) (growth : Growth) :
    DataPoint (Option (Number Rat)) := ⟨growth.time, attributes, 0, some growth.total⟩

/-- The data point of what was added. -/
def addedPoint (attributes : List Attribute) (growth : Growth) :
    DataPoint (Option (Number Rat)) := ⟨growth.time, attributes, 0, some growth.added⟩

/-- What a growth gives. -/
def point (labels : Labels) (growth : Growth) : Point Rat :=
  .at growth.time labels (.count growth.added.amount)

section Run

variable {labels : Labels}

theorem plan_added (labels : Labels) (attributes : List Attribute) (growths : List Growth) :
    pointPlans (NumberPoint.plan .count labels) (growths.map (addedPoint attributes)) =
      (growths.map (point (labels.withAttributes attributes))).map .emit := by
  induction growths with
  | nil => rfl
  | cons growth rest ih => exact congrArg (_ :: ·) ih

theorem plan_totals (hname : labels.name ∉ rateNames) (attributes : List Attribute)
    (growths : List Growth) :
    pointPlans (NumberPoint.totalPlan labels) (growths.map (totalPoint attributes)) =
      growths.map fun growth =>
        .track .total ⟨labels.withAttributes attributes, growth.time, growth.total.amount⟩ := by
  induction growths with
  | nil => rfl
  | cons growth rest ih =>
    have hone : NumberPoint.totalPlan labels (totalPoint attributes growth) =
        [.track .total ⟨labels.withAttributes attributes, growth.time, growth.total.amount⟩] := by
      unfold NumberPoint.totalPlan
      rw [if_neg hname]
      rfl
    show NumberPoint.totalPlan labels (totalPoint attributes growth) ++
      pointPlans (NumberPoint.totalPlan labels) (rest.map (totalPoint attributes)) = _
    rw [hone, ih]
    rfl

/-- Growths that are reported by totals give what was added, while the tracker holds the last
total. -/
theorem outcome_run_totals {growths : List Growth} {start : Observation Rat}
    (h : Accumulates start growths) (now : Nat) {tracker : Tracker Rat}
    (hs : tracker.stored? labels.series = some start) :
    (Plan.run now (growths.map fun growth =>
        .track .total ⟨labels, growth.time, growth.total.amount⟩) tracker).1 =
        ⟨growths.map (point labels), 0, []⟩ ∧
      (Plan.run now (growths.map fun growth =>
        .track .total ⟨labels, growth.time, growth.total.amount⟩) tracker).2.stored?
          labels.series = some (reachedFrom start growths) := by
  induction growths generalizing start tracker with
  | nil => exact ⟨rfl, hs⟩
  | cons growth rest ih =>
    obtain ⟨htime, hpos, htotal, hrest⟩ := h
    let sample : Sample Rat := ⟨labels, growth.time, growth.total.amount⟩
    have hchange : tracker.changeFor sample =
        .step start.value (start.value + growth.added.amount) (growth.time - start.time) :=
      htotal ▸ Tracker.changeFor_of_stored sample hs htime
    have hone : ((Step.track .total sample).run now tracker).1 =
        ⟨[growth.point labels], 0, []⟩ := by
      show Role.outcome .total sample (tracker.changeFor sample) = _
      rw [hchange, Role.outcome_step_add (by decide) sample hpos]
      rfl
    have hstored : ((Step.track .total sample).run now tracker).2.stored? labels.series =
        some growth.reached := by
      show (tracker.submit now sample).stored? labels.series = _
      rw [Tracker.stored?_submit, if_pos (show labels.series = sample.series from rfl), hs]
      exact congrArg some (if_neg (Nat.not_le_of_lt htime))
    obtain ⟨ho, hl⟩ := ih hrest hstored
    rw [List.map_cons, Plan.run_cons, hone, ho]
    exact ⟨rfl, hl⟩

end Run

end Growth

/-- Where the points of a sum come from. -/
structure Stream where
  resource : List Attribute
  scope : Option Scope
  name : String
  attributes : List Attribute

namespace Stream

/-- A batch of this one metric. -/
def batch (stream : Stream) (data : MetricData Rat) : Batch Rat :=
  [⟨stream.resource, [⟨stream.scope, [⟨stream.name, data⟩]⟩]⟩]

/-- The labels of the metric. -/
def metricLabels (settings : Settings) (stream : Stream) : Labels :=
  ((Context.ofResource settings stream.resource).inScope settings stream.scope).labels stream.name

/-- The labels of the points. -/
def labels (settings : Settings) (stream : Stream) : Labels :=
  (stream.metricLabels settings).withAttributes stream.attributes

/-- A batch of what was added. -/
def added (stream : Stream) (monotonic : Bool) (turn : Nat × List Growth) : Nat × Batch Rat :=
  (turn.1, stream.batch (.sum 1 monotonic (turn.2.map (Growth.addedPoint stream.attributes))))

/-- A batch of the totals. -/
def totals (stream : Stream) (turn : Nat × List Growth) : Nat × Batch Rat :=
  (turn.1, stream.batch (.sum 2 true (turn.2.map (Growth.totalPoint stream.attributes))))

/-- Batches of the totals. The total to start from comes first, as a growth from nothing. -/
def cumulative (stream : Stream) (time : Nat) (baseline : Number Rat) :
    List (Nat × List Growth) → List (Nat × Batch Rat)
  | [] => []
  | (now, growths) :: rest =>
    stream.totals (now, ⟨time, baseline, baseline⟩ :: growths) :: rest.map stream.totals

theorem plan_batch (settings : Settings) (stream : Stream) (data : MetricData Rat) :
    Batch.plan settings (stream.batch data) =
      sourceProblems (Source.resolve settings.fallback stream.resource) ++
        data.plan settings (stream.metricLabels settings) := by
  simp only [Batch.plan, batch, List.flatMap_cons, List.flatMap_nil, List.append_nil,
    ResourceMetrics.plan, ScopeMetrics.plan, Metric.plan, metricLabels]

theorem run_sourceProblems (now : Nat) (source : Except String Source)
    (tracker other : Tracker Rat) :
    (Plan.run now (sourceProblems source) tracker).1 =
        (Plan.run now (sourceProblems source) other).1 ∧
      (Plan.run now (sourceProblems source) tracker).2 = tracker := by
  apply Plan.run_of_samples_eq_nil
  cases source <;> rfl

/-- Two metrics of a stream give the same when their own plans do. -/
theorem convert_eq {converter other : Converter Rat} (hs : converter.settings = other.settings)
    (ho : converter.observer = other.observer) (stream : Stream) (now : Nat)
    {data more : MetricData Rat}
    (h : (Plan.run now (data.plan other.settings (stream.metricLabels other.settings))
        converter.tracker).1 =
      (Plan.run now (more.plan other.settings (stream.metricLabels other.settings))
        other.tracker).1) :
    (converter.convert now (stream.batch data)).1 = (other.convert now (stream.batch more)).1 := by
  have hrun : (Plan.run now (Batch.plan other.settings (stream.batch data))
      converter.tracker).1 =
        (Plan.run now (Batch.plan other.settings (stream.batch more)) other.tracker).1 := by
    obtain ⟨hp, hsame⟩ := run_sourceProblems now
      (Source.resolve other.settings.fallback stream.resource) converter.tracker other.tracker
    have hsame' := (run_sourceProblems now
      (Source.resolve other.settings.fallback stream.resource) other.tracker other.tracker).2
    rw [plan_batch, plan_batch, Plan.run_append, Plan.run_append, hsame, hsame', hp]
    exact congrArg (_ ++ ·) h
  rw [Converter.fst_convert, Converter.fst_convert, hs, hrun]
  exact Converter.shown_congr ho _

theorem tracker_convert_batch (converter : Converter Rat) (stream : Stream) (now : Nat)
    (data : MetricData Rat) :
    (converter.convert now (stream.batch data)).2.tracker =
      (Plan.run now (data.plan converter.settings (stream.metricLabels converter.settings))
        converter.tracker).2 := by
  rw [Converter.tracker_convert_eq_run, plan_batch, Plan.run_append,
    (run_sourceProblems now _ converter.tracker converter.tracker).2]

section Turns

variable {settings : Settings} (htotals : settings.totalMode = .increases) {stream : Stream}
  (hname : stream.name ∉ rateNames)

include htotals hname

theorem plan_totals (growths : List Growth) :
    (MetricData.sum 2 true (growths.map (Growth.totalPoint stream.attributes))).plan settings
        (stream.metricLabels settings) =
      growths.map fun growth =>
        .track .total ⟨stream.labels settings, growth.time, growth.total.amount⟩ := by
  have hplan : (MetricData.sum 2 true
      (growths.map (Growth.totalPoint stream.attributes))).plan settings
        (stream.metricLabels settings) =
      pointPlans (NumberPoint.totalPlan (stream.metricLabels settings))
        (growths.map (Growth.totalPoint stream.attributes)) := by
    show (if (true && decide (settings.totalMode = .increases)) = true then _ else _) = _
    rw [htotals]
    rfl
  rw [hplan]
  exact Growth.plan_totals hname stream.attributes growths

/-- One batch of totals, while the tracker holds the last one. -/
theorem run_totals {start : Observation Rat} {growths : List Growth}
    (h : Growth.Accumulates start growths) (now : Nat) {tracker : Tracker Rat}
    (hs : tracker.stored? (stream.labels settings).series = some start) :
    (Plan.run now ((MetricData.sum 2 true
        (growths.map (Growth.totalPoint stream.attributes))).plan settings
          (stream.metricLabels settings)) tracker).1 =
        ⟨growths.map (Growth.point (stream.labels settings)), 0, []⟩ ∧
      (Plan.run now ((MetricData.sum 2 true
        (growths.map (Growth.totalPoint stream.attributes))).plan settings
          (stream.metricLabels settings)) tracker).2.stored? (stream.labels settings).series =
        some (Growth.reachedFrom start growths) := by
  rw [plan_totals htotals hname]
  exact Growth.outcome_run_totals h now hs

/-- One batch that begins with the first total of all. -/
theorem run_first {first : Growth} {growths : List Growth}
    (h : Growth.Accumulates first.reached growths) (now : Nat) {tracker : Tracker Rat}
    (hs : tracker.stored? (stream.labels settings).series = none) :
    (Plan.run now ((MetricData.sum 2 true
        ((first :: growths).map (Growth.totalPoint stream.attributes))).plan settings
          (stream.metricLabels settings)) tracker).1 =
        ⟨growths.map (Growth.point (stream.labels settings)), 0, []⟩ ∧
      (Plan.run now ((MetricData.sum 2 true
        ((first :: growths).map (Growth.totalPoint stream.attributes))).plan settings
          (stream.metricLabels settings)) tracker).2.stored? (stream.labels settings).series =
        some (Growth.reachedFrom first.reached growths) := by
  let sample : Sample Rat := ⟨stream.labels settings, first.time, first.total.amount⟩
  have hsample : tracker.stored? sample.series = none := hs
  have hnothing : ((Step.track .total sample).run now tracker).1 = .empty := by
    show Role.outcome .total sample (tracker.changeFor sample) = _
    rw [Tracker.changeFor_eq, hsample]
    rfl
  have hstored : ((Step.track .total sample).run now tracker).2.stored?
      (stream.labels settings).series = some first.reached := by
    show (tracker.submit now sample).stored? sample.series = _
    rw [Tracker.stored?_submit, if_pos rfl, hsample]
    rfl
  obtain ⟨ho, hl⟩ := Growth.outcome_run_totals h now hstored
  rw [plan_totals htotals hname, List.map_cons, Plan.run_cons, hnothing, Outcome.empty_append]
  exact ⟨ho, hl⟩

omit htotals hname in
/-- One batch of what was added. -/
theorem run_added (monotonic : Bool) (growths : List Growth) (now : Nat) (tracker : Tracker Rat) :
    (Plan.run now ((MetricData.sum 1 monotonic
        (growths.map (Growth.addedPoint stream.attributes))).plan settings
          (stream.metricLabels settings)) tracker).1 =
      ⟨growths.map (Growth.point (stream.labels settings)), 0, []⟩ := by
  have hplan : (MetricData.sum 1 monotonic
      (growths.map (Growth.addedPoint stream.attributes))).plan settings
        (stream.metricLabels settings) =
      (growths.map (Growth.point (stream.labels settings))).map .emit :=
    Growth.plan_added (stream.metricLabels settings) stream.attributes growths
  rw [hplan]
  exact Plan.outcome_run_emit now _ tracker

end Turns

theorem points_run_sourceProblems (now : Nat) (source : Except String Source)
    (tracker : Tracker Rat) : (Plan.run now (sourceProblems source) tracker).1.points = [] := by
  cases source <;> rfl

/-- Batches of what was added give one point for each growth, in order. -/
theorem points_convertEach_added (converter : Converter Rat) (stream : Stream) (monotonic : Bool)
    (turns : List (Nat × List Growth)) :
    (converter.convertEach (turns.map (stream.added monotonic))).1.map (·.points) =
      turns.map fun turn => turn.2.map (Growth.point (stream.labels converter.settings)) := by
  induction turns generalizing converter with
  | nil => rfl
  | cons turn rest ih =>
    have hone : (converter.convert turn.1 (stream.added monotonic turn).2).1.points =
        turn.2.map (Growth.point (stream.labels converter.settings)) := by
      rw [Converter.fst_convert]
      show (Plan.run turn.1 (Batch.plan converter.settings (stream.batch _))
        converter.tracker).1.points = _
      rw [plan_batch, Plan.run_append, Outcome.points_append, points_run_sourceProblems,
        run_added, List.nil_append]
    have hrest := ih (converter.convert turn.1 (stream.added monotonic turn).2).2
    rw [Converter.settings_convert] at hrest
    exact congrArg₂ List.cons hone hrest

/-- Batches of totals give what batches of what was added give, while the tracker holds the last
total. -/
theorem convertEach_totals {converter other : Converter Rat}
    (hs : converter.settings = other.settings) (ho : converter.observer = other.observer)
    (htotals : other.settings.totalMode = .increases) {stream : Stream}
    (hname : stream.name ∉ rateNames) (monotonic : Bool) {turns : List (Nat × List Growth)}
    {start : Observation Rat} (h : Growth.Accumulates start (turns.flatMap Prod.snd))
    (hstored : converter.tracker.stored? (stream.labels other.settings).series = some start) :
    (converter.convertEach (turns.map stream.totals)).1 =
      (other.convertEach (turns.map (stream.added monotonic))).1 := by
  induction turns generalizing converter other start with
  | nil => rfl
  | cons turn rest ih =>
    rw [List.flatMap_cons, Growth.accumulates_append] at h
    obtain ⟨hrun, hlast⟩ := run_totals htotals hname h.1 turn.1 hstored
    have hone := convert_eq hs ho stream turn.1
      (hrun.trans (run_added monotonic turn.2 turn.1 other.tracker).symm)
    have hheld : (converter.convert turn.1 (stream.totals turn).2).2.tracker.stored?
        (stream.labels other.settings).series = some (Growth.reachedFrom start turn.2) := by
      rw [totals, tracker_convert_batch, hs]
      exact hlast
    have hs' : (converter.convert turn.1 (stream.totals turn).2).2.settings =
        (other.convert turn.1 (stream.added monotonic turn).2).2.settings := by
      rw [Converter.settings_convert, Converter.settings_convert, hs]
    have ho' : (converter.convert turn.1 (stream.totals turn).2).2.observer =
        (other.convert turn.1 (stream.added monotonic turn).2).2.observer := by
      rw [Converter.observer_convert, Converter.observer_convert, ho]
    rw [← other.settings_convert turn.1 (stream.added monotonic turn).2] at htotals hheld
    exact congrArg₂ List.cons hone (ih hs' ho' htotals h.2 hheld)

/-- Batches of totals give what batches of what was added give, from the first total on. -/
theorem convertEach_agree {converter : Converter Rat}
    (htotals : converter.settings.totalMode = .increases) {stream : Stream}
    (hname : stream.name ∉ rateNames) (monotonic : Bool) {turns : List (Nat × List Growth)}
    {time : Nat} {baseline : Number Rat}
    (h : Growth.Accumulates ⟨time, baseline.amount⟩ (turns.flatMap Prod.snd))
    (hfresh : converter.tracker.stored? (stream.labels converter.settings).series = none) :
    (converter.convertEach (stream.cumulative time baseline turns)).1 =
      (converter.convertEach (turns.map (stream.added monotonic))).1 := by
  cases turns with
  | nil => rfl
  | cons turn rest =>
    rw [List.flatMap_cons, Growth.accumulates_append] at h
    let first : Growth := ⟨time, baseline, baseline⟩
    have hstart : Growth.Accumulates first.reached turn.2 := h.1
    obtain ⟨hrun, hlast⟩ := run_first htotals hname hstart turn.1 hfresh
    have hone := convert_eq rfl rfl stream turn.1
      (hrun.trans (run_added monotonic turn.2 turn.1 converter.tracker).symm)
    let batch := (stream.totals (turn.1, first :: turn.2)).2
    have hheld : (converter.convert turn.1 batch).2.tracker.stored?
        (stream.labels converter.settings).series =
          some (Growth.reachedFrom first.reached turn.2) := by
      rw [show batch = stream.batch _ from rfl, tracker_convert_batch]
      exact hlast
    have hs : (converter.convert turn.1 batch).2.settings =
        (converter.convert turn.1 (stream.added monotonic turn).2).2.settings := by
      rw [Converter.settings_convert, Converter.settings_convert]
    have ho : (converter.convert turn.1 batch).2.observer =
        (converter.convert turn.1 (stream.added monotonic turn).2).2.observer := by
      rw [Converter.observer_convert, Converter.observer_convert]
    rw [← converter.settings_convert turn.1 (stream.added monotonic turn).2] at htotals hheld
    exact congrArg₂ List.cons hone
      (convertEach_totals hs ho htotals hname monotonic h.2 hheld)

end Stream

/-- Cumulative and delta reporting agree. A sum that is sent by its running totals gives, from a
fresh tracker on and batch by batch, what it gives when it is sent by what was added, which is a
point for each growth; and so does a histogram, once its first total was sent, with a point for each
line of a share. -/
theorem totals_agree_with_shares :
    (∀ (converter : Converter Rat) (stream : Stream) (monotonic : Bool)
        (turns : List (Nat × List Growth)) (time : Nat) (baseline : Number Rat),
      converter.settings.totalMode = .increases →
      stream.name ∉ rateNames →
      (∀ series, converter.tracker.stored? series = none) →
      Growth.Accumulates ⟨time, baseline.amount⟩ (turns.flatMap Prod.snd) →
      (converter.convertEach (stream.cumulative time baseline turns)).1 =
          (converter.convertEach (turns.map (stream.added monotonic))).1 ∧
        (converter.convertEach (turns.map (stream.added monotonic))).1.map (·.points) =
          turns.map fun turn => turn.2.map (Growth.point (stream.labels converter.settings))) ∧
    (∀ (settings : Settings) (labels : Labels) (bounds : List Float) (baseline : Share)
        (shares : List Share) (ttl : Nat),
      settings.bucketMode ≠ .distributions →
      (∀ tag ∈ labels.tags, tag.name ≠ "lower_bound") →
      (∀ bound ∈ bounds, bound.isFinite = true) →
      bounds.Pairwise (· < ·) →
      baseline.counts.length = bounds.length + 1 →
      (∀ share ∈ shares, share.counts.length = bounds.length + 1) →
      (baseline.time :: shares.map Share.time).Pairwise (· < ·) →
      (∀ share ∈ shares, 0 ≤ share.sum) →
      (Plan.runEach ((baseline :: baseline.runningTotals shares).map
          (Share.timed settings labels bounds .cumulative)) (.empty ttl)).1 =
          .empty :: (Plan.runEach (shares.map (Share.timed settings labels bounds .delta))
            (.empty ttl)).1 ∧
        (Plan.runEach (shares.map (Share.timed settings labels bounds .delta))
          (.empty ttl)).1 = shares.map (Share.outcome settings labels bounds)) := by
  refine ⟨?_, ?_⟩
  · intro converter stream monotonic turns time baseline htotals hname hfresh h
    exact ⟨Stream.convertEach_agree htotals hname monotonic h (hfresh _),
      Stream.points_convertEach_added converter stream monotonic turns⟩
  · intro settings labels bounds baseline shares ttl hmode hl hf hs ht hc htime hsum
    exact ⟨Share.runEach_agree hmode hl hf hs ht hc htime hsum ttl,
      Share.runEach_shares hmode hc _⟩

/-- A counter that starts at five and grows by two and then by three, in two batches. -/
def twoTurns : List (Nat × List Growth) :=
  [(0, [⟨2, .integer 7, .integer 2⟩]), (1, [⟨3, .real 10, .real 3⟩])]

/-- Two shares of a histogram with three buckets. -/
def twoShares : List Share := [⟨1, 20, 3, 4, [1, 2, 0]⟩, ⟨2, 30, 1, 0, [0, 0, 1]⟩]

theorem totals_agree_for_twoTurns_twoShares :
    (let converter : Converter Rat := ⟨Settings.default, .empty 0, .logger, false, .zero⟩
      let stream : Stream := ⟨[], none, "requests", []⟩
      (converter.convertEach (stream.cumulative 1 (.integer 5) twoTurns)).1.map (·.points) =
        twoTurns.map fun turn => turn.2.map (Growth.point (stream.labels converter.settings))) ∧
    (let settings := { Settings.default with bucketMode := .counters, aggregations := true }
      let labels : Labels := ⟨"latency", ∅, none, none⟩
      let baseline : Share := ⟨0, 10, 5, 6, [5, 0, 0]⟩
      (Plan.runEach ((baseline :: baseline.runningTotals twoShares).map
          (Share.timed settings labels [0.5, 1.5] .cumulative)) (.empty 0)).1 =
        .empty :: twoShares.map (Share.outcome settings labels [0.5, 1.5])) := by
  refine ⟨?_, ?_⟩
  · intro converter stream
    have hgrows : Growth.Accumulates ⟨1, (Number.integer 5 : Number Rat).amount⟩
        (twoTurns.flatMap Prod.snd) := by
      simp [twoTurns, Growth.Accumulates, Growth.reached, Number.amount, Amount.ofInt]
      norm_num
    obtain ⟨hsame, hpoints⟩ := totals_agree_with_shares.1 converter stream true twoTurns 1
      (.integer 5) rfl (by decide) (fun _ => rfl) hgrows
    rw [hsame, hpoints]
  · intro settings labels baseline
    have hmode : settings.bucketMode ≠ .distributions := by decide
    have hfinite : ∀ bound ∈ [(0.5 : Float), 1.5], bound.isFinite = true := by decide +kernel
    have hincrease : [(0.5 : Float), 1.5].Pairwise (· < ·) := by decide +kernel
    have hpos : ∀ share ∈ twoShares, 0 ≤ share.sum := by decide +kernel
    obtain ⟨hrun, hshares⟩ := totals_agree_with_shares.2 settings labels [0.5, 1.5] baseline
      twoShares 0 hmode (by simp [labels]) hfinite hincrease rfl (by decide) (by decide) hpos
    rw [hrun, hshares]

end MetricPoints
