import MetricPoints.Proofs.Arrivals
import MetricPoints.Proofs.Replay

/-
  Sweeping only withholds points. A swept tracker is a thinned copy of one that is never swept: each
  series is either stored alike in both, or forgotten in the first and old in the second
  (`Thinned`). As long as data points come in the order of their times, a sample of a forgotten
  series is then a baseline in the one and not late in the other, after which both store it alike;
  so thinning survives samples and sweeps (`Thinned.submit`, `Thinned.sweep`). A baseline gives no
  point and drops none but those of its own data point (`Step.sublist_of_thinned`).

  Main statement: `Station.sweeping_only_withholds`.
-/

namespace MetricPoints

variable {V : Type}

namespace Tracker

/-- A tracker that stores the same as another one, but for series that it has forgotten and whose
stored values are older than a time. -/
def Thinned (time : Nat) (thin full : Tracker V) : Prop :=
  ∀ series, thin.stored? series = full.stored? series ∨
    thin.stored? series = none ∧ ∀ held, full.stored? series = some held → held.time < time

namespace Thinned

variable {time later : Nat} {thin full : Tracker V} {sample : Sample V}

theorem refl (time : Nat) (tracker : Tracker V) : Thinned time tracker tracker :=
  fun _ => .inl rfl

theorem mono (h : Thinned time thin full) (hle : time ≤ later) : Thinned later thin full :=
  fun series => (h series).imp id
    fun ⟨hn, ho⟩ => ⟨hn, fun held hs => Nat.lt_of_lt_of_le (ho held hs) hle⟩

/-- A sweep only adds to what is forgotten. -/
theorem sweep (h : Thinned time thin full)
    (hb : full.AllStored fun _ held => held.time < time) (now : Nat) :
    Thinned time (thin.sweep now) full := by
  intro series
  rcases thin.stored?_sweep now series with hk | hk
  · rw [hk]
    exact h series
  · exact .inr ⟨hk, fun held hs => hb series held hs⟩

/-- A sample means the same to both trackers, or it is a baseline to the thinned one. -/
theorem changeFor (h : Thinned time thin full) (sample : Sample V) :
    thin.changeFor sample = full.changeFor sample ∨ thin.changeFor sample = .baseline := by
  rw [changeFor_eq, changeFor_eq]
  rcases h sample.series with he | ⟨hn, -⟩
  · rw [he]
    exact .inl rfl
  · rw [hn]
    exact .inr rfl

/-- Whatever is sampled is stored alike afterwards. -/
theorem submit (h : Thinned time thin full) (now now' : Nat) (ht : sample.time = time) :
    Thinned time (thin.submit now sample) (full.submit now' sample) := by
  intro series
  rw [stored?_submit, stored?_submit]
  split
  · left
    rcases h series with he | ⟨hn, ho⟩
    · rw [he]
    · rw [hn]
      cases hf : full.stored? series with
      | none => rfl
      | some held =>
        have hnew : ¬ sample.time ≤ held.time := Nat.not_le.mpr (ht ▸ ho held hf)
        exact congrArg some (if_neg hnew).symm
  · exact h series

theorem observeAll (h : Thinned time thin full) (now now' : Nat) {samples : List (Sample V)}
    (ht : ∀ sample ∈ samples, sample.time = time) :
    Thinned time (thin.observeAll now samples).2 (full.observeAll now' samples).2 := by
  induction samples generalizing thin full with
  | nil => exact h
  | cons sample rest ih =>
    obtain ⟨hs, hr⟩ := List.forall_mem_cons.mp ht
    exact ih (h.submit now now' hs) hr

end Thinned

end Tracker

/-! ## What a thinned tracker yields -/

variable [Amount V] {time : Nat} {thin full : Tracker V}

namespace Aggregates

variable (h : Tracker.Thinned time thin full) (a : Aggregates V)

include h

omit [Amount V] in
theorem change?_of_thinned (statistic : Statistic) :
    a.change? thin statistic = a.change? full statistic ∨
      a.change? thin statistic = some .baseline := by
  unfold change?
  cases a.value? statistic with
  | none => exact .inl rfl
  | some value =>
    exact (h.changeFor (a.sampleOf statistic value)).imp (congrArg some) (congrArg some)

theorem increase?_of_thinned {statistic : Statistic}
    (hs : (a.increase? thin statistic).isSome = true) :
    a.increase? thin statistic = a.increase? full statistic := by
  rcases a.change?_of_thinned h statistic with he | hb
  · rw [increase?, he, increase?]
  · rw [increase?, hb] at hs
    exact absurd hs Bool.false_ne_true

theorem moved_of_thinned {statistic : Statistic}
    (hm : (a.change? thin statistic).any Change.moved = true) :
    (a.change? full statistic).any Change.moved = true := by
  rcases a.change?_of_thinned h statistic with he | hb
  · rwa [← he]
  · rw [hb] at hm
    exact nomatch hm

/-- The increase of the sum is the same where the data point is reported at all. -/
theorem increase?_sum_of_thinned (hc : a.complete thin = true) :
    a.increase? thin .sum = a.increase? full .sum := by
  rw [complete, Bool.and_eq_true, Bool.or_eq_true] at hc
  rcases hc.2 with hnone | hsome
  · have hv : a.value? .sum = none := Option.isNone_iff_eq_none.mp hnone
    rw [increase?, change?, hv, increase?, change?, hv]
    rfl
  · exact a.increase?_of_thinned h hsome

/-- The statistics that a thinned tracker reports are among those that the other one reports. -/
theorem sublist_of_thinned :
    (Step.outcomeFrom thin (.aggregate a)).points.Sublist
      (Step.outcomeFrom full (.aggregate a)).points := by
  rw [points_outcomeFrom, points_outcomeFrom]
  by_cases hc : a.complete thin = true
  · have hcount : a.increase? thin .count = a.increase? full .count :=
      a.increase?_of_thinned h (Bool.and_eq_true_iff.mp hc).1
    have hsum := a.increase?_sum_of_thinned h hc
    have hfull : a.complete full = true := by
      rw [complete, hcount, hsum] at hc
      exact hc
    have hextremum (value : Option V) (statistic : Statistic) :
        ((value.filter fun _ => (a.change? thin statistic).any Change.moved).toList.map
            (a.point statistic)).Sublist
          ((value.filter fun _ => (a.change? full statistic).any Change.moved).toList.map
            (a.point statistic)) := by
      by_cases hm : (a.change? thin statistic).any Change.moved = true
      · rw [hm, a.moved_of_thinned h hm]
      · rw [Bool.not_eq_true] at hm
        rw [hm]
        cases value <;> exact List.nil_sublist _
    rw [if_pos hc, if_pos hfull, hcount, hsum]
    exact ((List.Sublist.refl _).append (hextremum a.min .min)).append (hextremum a.max .max)
  · rw [if_neg hc]
    exact List.nil_sublist _

end Aggregates

/-- The points that a step gives from a thinned tracker are among those that it gives from the
other one. -/
theorem Step.sublist_of_thinned (h : Tracker.Thinned time thin full) (step : Step V) :
    (step.outcomeFrom thin).points.Sublist (step.outcomeFrom full).points := by
  cases step with
  | emit | note => exact .refl _
  | track role sample =>
    show (role.outcome sample (thin.changeFor sample)).points.Sublist
      (role.outcome sample (full.changeFor sample)).points
    rcases h.changeFor sample with he | hb
    · rw [he]
    · rw [hb]
      cases role <;> exact List.nil_sublist _
  | aggregate a => exact a.sublist_of_thinned h

theorem Plan.sublist_of_thinned (h : Tracker.Thinned time thin full) (now now' : Nat)
    {plan : Plan V} (ht : ∀ sample ∈ plan.samples, sample.time = time) :
    (run now plan thin).1.points.Sublist (run now' plan full).1.points := by
  induction plan generalizing thin full with
  | nil => exact .refl _
  | cons step rest ih =>
    rw [samples_cons, List.forall_mem_append] at ht
    rw [run_cons, run_cons, Step.fst_run, Step.fst_run, Outcome.points_append,
      Outcome.points_append]
    exact (step.sublist_of_thinned h).append (ih (h.observeAll now now' ht.1) ht.2)

/-! ## Runs with and without sweeps -/

namespace Station

/-- A run without its sweeps. -/
def unswept (happenings : List (Happening V)) : List (Happening V) :=
  happenings.filter fun happening => !happening.sweeps

/-- From a thinned tracker, and with sweeps, each data point gives some of the points that it gives
otherwise. -/
theorem matched_of_thinned {settings : Settings} {swept whole : Station V}
    {happenings : List (Happening V)}
    (horder : (happenings.filterMap Happening.arrival?).Pairwise fun a b => a.time < b.time)
    {time : Nat} (hthin : Tracker.Thinned time swept.tracker whole.tracker)
    (hbefore : whole.tracker.AllStored fun _ held => held.time < time)
    (hlater : ∀ arrival ∈ happenings.filterMap Happening.arrival?, time ≤ arrival.time) :
    Matched (fun _ thin full => thin.points.Sublist full.points)
      (swept.outcomes settings happenings) (whole.outcomes settings (unswept happenings)) := by
  induction happenings generalizing swept whole time with
  | nil => exact .nil
  | cons happening rest ih =>
    cases happening with
    | arrive arrival =>
      obtain ⟨hfirst, horder⟩ := List.pairwise_cons.mp horder
      have hle : time ≤ arrival.time := hlater _ List.mem_cons_self
      have htimes : ∀ sample ∈ (arrival.plan settings).samples, sample.time = arrival.time :=
        fun sample hm => Arrival.time_of_mem_samples hm
      have hthin' := hthin.mono hle
      have hthin'' : Tracker.Thinned (arrival.time + 1)
          (Plan.run swept.now (arrival.plan settings) swept.tracker).2
          (Plan.run whole.now (arrival.plan settings) whole.tracker).2 := by
        rw [Plan.tracker_run, Plan.tracker_run]
        exact (hthin'.observeAll _ _ htimes).mono (Nat.le_succ _)
      have hbefore' : (Plan.run whole.now (arrival.plan settings) whole.tracker).2.AllStored
          fun _ held => held.time < arrival.time + 1 := by
        rw [Plan.tracker_run]
        have hkept := hbefore.mono fun _ held hs => Nat.lt_succ_of_lt (Nat.lt_of_lt_of_le hs hle)
        exact hkept.observeAll _ fun sample hm =>
          Nat.lt_succ_of_le (Nat.le_of_eq (htimes sample hm))
      exact .cons ⟨rfl, Plan.sublist_of_thinned hthin' _ _ htimes⟩
        (ih horder hthin'' hbefore' hfirst)
    | advance n => exact ih horder hthin hbefore hlater
    | sweep => exact ih horder (hthin.sweep hbefore _) hbefore hlater

/-- In a run whose data points come in the order of their times, sweeping only withholds points:
each data point gives some of the points, in order, that it gives when there is no sweep at all. -/
theorem sweeping_only_withholds (settings : Settings) (ttl interval : Nat)
    {happenings : List (Happening V)}
    (horder : (happenings.filterMap Happening.arrival?).Pairwise fun a b => a.time < b.time) :
    Matched (fun _ thin full => thin.points.Sublist full.points)
      ((Station.new ttl interval).outcomes settings happenings)
      ((Station.new ttl interval).outcomes settings (unswept happenings)) :=
  matched_of_thinned horder (.refl 0 _) (.empty _ ttl) fun _ _ => Nat.zero_le _

/-- A cumulative histogram without buckets, at a number of seconds. -/
def latencyAt (seconds count : Nat) (sum max : Option Rat) : Happening Rat :=
  .arrive ⟨⟨"latency", .empty, none, none⟩, seconds * Amount.second,
    .histogram .cumulative ⟨⟨count, sum, none, max⟩, [], []⟩⟩

/-- A run whose second data point has no maximum, so that only the maximum has expired when the
tracker is swept. -/
def maximumExpires : List (Happening Rat) :=
  [latencyAt 1 3 (some 6) (some 4), .advance (8 * Amount.second), latencyAt 2 5 (some 9) none,
    .advance (8 * Amount.second), .sweep, latencyAt 3 7 (some 20) (some 9)]

theorem sweeping_withholds_maximum :
    let settings := { Settings.default with bucketMode := .omitted, aggregations := true }
    let start : Station Rat := .new (10 * Amount.second) 0
    (maximumExpires.filterMap Happening.arrival?).Pairwise (fun a b => a.time < b.time) ∧
      Matched (fun _ thin full => thin.points.Sublist full.points)
        (start.outcomes settings maximumExpires)
        (start.outcomes settings (unswept maximumExpires)) ∧
      (start.outcomes settings maximumExpires).map (·.2.points.length) = [0, 2, 2] ∧
      (start.outcomes settings (unswept maximumExpires)).map (·.2.points.length) = [0, 2, 3] := by
  intro settings start
  have horder :
      (maximumExpires.filterMap Happening.arrival?).Pairwise fun a b => a.time < b.time := by
    decide
  exact ⟨horder, sweeping_only_withholds settings _ _ horder, by decide, by decide⟩

end Station

end MetricPoints
