import Mathlib.Tactic.Linarith
import MetricPoints.Proofs.Buckets
import MetricPoints.Proofs.Statistics

/-
  Totals and shares agree. A histogram that is reported by running totals gives nothing at first,
  and then the same points, report by report, as one that is reported by what was added. The
  invariant of the run is that the tracker holds every series of the last total (`Holds`); it is
  kept because the series of one report are distinct (`nodup_lines`), so that each of them meets
  its own last value.
-/

namespace MetricPoints

/-- What was added to a histogram up to a time, reported while the clock reads `now`. -/
structure Share where
  now : Nat
  time : Nat
  count : Nat
  sum : Rat
  counts : List Nat

theorem Outcome.join_append {V : Type} (xs ys : List (Outcome V)) :
    Outcome.join (xs ++ ys) = Outcome.join xs ++ Outcome.join ys := by
  induction xs with
  | nil => exact (Outcome.empty_append _).symm
  | cons x rest ih => rw [List.cons_append, join_cons, ih, join_cons, append_assoc]

theorem Outcome.join_eq_empty {V α : Type} {xs : List α} {outcome : α → Outcome V}
    (h : ∀ x ∈ xs, outcome x = .empty) : Outcome.join (xs.map outcome) = .empty := by
  induction xs with
  | nil => rfl
  | cons x rest ih =>
    obtain ⟨hx, hrest⟩ := List.forall_mem_cons.mp h
    rw [List.map_cons, join_cons, hx, empty_append, ih hrest]

/-- Says whether a step goes through the tracker. -/
def Step.tracks {V : Type} : Step V → Bool
  | track _ _ | aggregate _ => true
  | emit _ | note _ => false

/-- What goes through a tracker that knows none of it gives nothing. -/
theorem Step.outcomeFrom_of_unseen {V : Type} [Amount V] {tracker : Tracker V} {step : Step V}
    (ht : step.tracks = true) (h : ∀ sample ∈ step.samples, tracker.stored? sample.series = none) :
    step.outcomeFrom tracker = .empty := by
  have hbaseline : step.samples.map tracker.changeFor = step.samples.map fun _ => .baseline := by
    apply List.map_congr_left
    intro sample hs
    rw [Tracker.changeFor_eq, h sample hs]
  rw [outcomeFrom, hbaseline]
  cases step with
  | emit point => exact absurd ht Bool.false_ne_true
  | note notice => exact absurd ht Bool.false_ne_true
  | track role sample => cases role <;> rfl
  | aggregate a =>
    obtain ⟨labels, time, count, sum, min, max⟩ := a
    cases sum <;> cases min <;> cases max <;> rfl

/-- A plan that only emits points gives them. -/
theorem Plan.outcome_run_emit {V : Type} [Amount V] (now : Nat) (points : List (Point V))
    (tracker : Tracker V) : (run now (points.map .emit) tracker).1 = ⟨points, 0, []⟩ := by
  induction points with
  | nil => rfl
  | cons point rest ih =>
    rw [List.map_cons, run_cons]
    exact congrArg (⟨[point], 0, []⟩ ++ ·) ih

/-- A step up adds what it adds. -/
theorem Change.increase?_step_add (previous : Rat) {added : Rat} (h : 0 ≤ added) (elapsed : Nat) :
    (Change.step previous (previous + added) elapsed).increase? = some added := by
  have hless : ¬ previous + added < previous := by linarith
  show some (if decide (previous + added < previous) then _ else previous + added - previous) = _
  rw [decide_eq_false hless, if_neg Bool.false_ne_true, add_sub_cancel_left]

/-- What was added by a step up is given as a count, for totals and for parts. -/
theorem Role.outcome_step_add {role : Role} (hr : role ≠ .rate) (sample : Sample Rat)
    {previous added : Rat} (h : 0 ≤ added) (elapsed : Nat) :
    role.outcome sample (.step previous (previous + added) elapsed) =
      ⟨[.at sample.time sample.labels (.count added)], 0, []⟩ := by
  have hincrease := Change.increase?_step_add previous h elapsed
  cases role with
  | rate => exact absurd rfl hr
  | total | part =>
    unfold Role.outcome
    simp only
    rw [hincrease]
    rfl

namespace Share

/-- The histogram that is reported. -/
def histogram (bounds : List Float) (share : Share) : Histogram Rat :=
  ⟨⟨share.count, some share.sum, none, none⟩, bounds, share.counts⟩

/-- The running total after one more share. -/
def plus (total share : Share) : Share :=
  ⟨share.now, share.time, total.count + share.count, total.sum + share.sum,
    total.counts.zipWith (· + ·) share.counts⟩

/-- The running totals that shares add up to, from a total on. -/
def runningTotals (total : Share) : List Share → List Share
  | [] => []
  | share :: rest => total.plus share :: runningTotals (total.plus share) rest

/-- What is run for a report, and when. -/
def timed (settings : Settings) (labels : Labels) (bounds : List Float)
    (temporality : Temporality) (share : Share) : Nat × Plan Rat :=
  (share.now, (share.histogram bounds).plan settings labels share.time temporality)

/-- The statistics that are reported as series of their own, with their labels. -/
def statistics (settings : Settings) (labels : Labels) (share : Share) : List (Labels × Rat) :=
  if settings.showsStatistics then
    [(labels.suffixed "count", (share.count : Rat)), (labels.suffixed "sum", share.sum)]
  else []

/-- The buckets that are reported as series of their own, with their labels. -/
def buckets (settings : Settings) (labels : Labels) (bounds : List Float) (share : Share) :
    List (Labels × Rat) :=
  if settings.bucketMode = .counters then
    ((Histogram.bucketEdges bounds).zip share.counts).map fun bucket =>
      (Histogram.bucketLabels labels bucket.1, (bucket.2 : Rat))
  else []

/-- All lines of a report. -/
def lines (settings : Settings) (labels : Labels) (bounds : List Float) (share : Share) :
    List (Labels × Rat) :=
  share.statistics settings labels ++ share.buckets settings labels bounds

/-- The sample of a line. -/
def sampleOf (share : Share) (line : Labels × Rat) : Sample Rat := ⟨line.1, share.time, line.2⟩

/-- The point of a line. -/
def pointOf (share : Share) (line : Labels × Rat) : Point Rat :=
  .at share.time line.1 (.count line.2)

section Plans

variable {settings : Settings} (hmode : settings.bucketMode ≠ .distributions) (labels : Labels)
  {bounds : List Float} {share : Share} (hc : share.counts.length = bounds.length + 1)

/-- The aggregates of a total; extrema are never told. -/
def aggregates (labels : Labels) (share : Share) : Aggregates Rat :=
  ⟨labels, share.time, share.count, some share.sum, none, none⟩

theorem aggregates_of (bounds : List Float) (share : Share) :
    Aggregates.of settings labels share.time (share.histogram bounds).stats =
      share.aggregates labels := by
  unfold Aggregates.of
  simp only [Stats.finite, histogram, Option.filter_none, ite_self]
  rfl

include hmode hc in
theorem detailPlan_eq (temporality : Temporality) :
    (share.histogram bounds).detailPlan settings labels share.time temporality =
      (share.buckets settings labels bounds).map fun line =>
        match temporality with
        | .delta => .emit (share.pointOf line)
        | .cumulative => .track .part (share.sampleOf line) := by
  have hne : share.counts ≠ [] := by
    intro e
    rw [e] at hc
    exact absurd hc (by simp)
  unfold Histogram.detailPlan buckets
  cases hm : settings.bucketMode with
  | omitted => rfl
  | distributions => exact absurd hm hmode
  | counters =>
    simp only [if_true]
    unfold Histogram.bucketPlan
    refine (if_neg hne).trans ((if_pos hc).trans ?_)
    rw [List.map_map]
    cases temporality <;> rfl

include hmode hc

/-- Shares are reported as they are. -/
theorem plan_delta :
    (share.histogram bounds).plan settings labels share.time .delta =
      ((share.lines settings labels bounds).map share.pointOf).map .emit := by
  rw [Histogram.plan_eq, detailPlan_eq hmode labels hc, lines, List.map_append, List.map_append,
    List.map_map (l := share.buckets settings labels bounds)]
  congr 1
  unfold Stats.plan statistics
  split
  · rw [aggregates_of]
    rfl
  · rfl

/-- Totals go through the tracker: the statistics together, the buckets one by one. -/
theorem plan_cumulative :
    (share.histogram bounds).plan settings labels share.time .cumulative =
      (if settings.showsStatistics then [.aggregate (share.aggregates labels)] else []) ++
        (share.buckets settings labels bounds).map fun line =>
          .track .part (share.sampleOf line) := by
  rw [Histogram.plan_eq, detailPlan_eq hmode labels hc]
  congr 1
  unfold Stats.plan
  split
  · rw [aggregates_of]
    rfl
  · rfl

/-- Every line of a total is a sample. -/
theorem samples_cumulative :
    ((share.histogram bounds).plan settings labels share.time .cumulative).samples =
      (share.lines settings labels bounds).map share.sampleOf := by
  rw [plan_cumulative hmode labels hc, lines, List.map_append, Plan.samples, List.flatMap_append]
  congr 1
  · unfold statistics
    split <;> rfl
  · rw [List.flatMap_map]
    exact List.map_eq_flatMap.symm

end Plans

section Lines

variable {settings : Settings} {labels : Labels} {bounds : List Float} {share total : Share}

theorem fst_buckets (settings : Settings) (labels : Labels)
    (hc : share.counts.length = bounds.length + 1) :
    (share.buckets settings labels bounds).map Prod.fst =
      if settings.bucketMode = .counters then
        (Histogram.bucketEdges bounds).map (Histogram.bucketLabels labels)
      else [] := by
  unfold buckets
  split
  · have hle : (Histogram.bucketEdges bounds).length ≤ share.counts.length := by
      rw [Histogram.length_bucketEdges, hc]
    rw [List.map_map]
    conv_rhs => rw [← List.map_fst_zip hle, List.map_map]
    rfl
  · rfl

/-- The labels of the lines depend on the bounds only. -/
theorem fst_lines_eq (settings : Settings) (labels : Labels)
    (hs : share.counts.length = bounds.length + 1) (ht : total.counts.length = bounds.length + 1) :
    (share.lines settings labels bounds).map Prod.fst =
      (total.lines settings labels bounds).map Prod.fst := by
  rw [lines, lines, List.map_append, List.map_append, fst_buckets settings labels hs,
    fst_buckets settings labels ht]
  congr 1
  unfold statistics
  split <;> rfl

theorem length_counts_plus (ht : total.counts.length = bounds.length + 1)
    (hs : share.counts.length = bounds.length + 1) :
    (total.plus share).counts.length = bounds.length + 1 := by
  show (total.counts.zipWith (· + ·) share.counts).length = _
  rw [List.length_zipWith, ht, hs, Nat.min_self]

/-- The buckets of a total grow by those of the share. -/
theorem buckets_plus (settings : Settings) (labels : Labels) (bounds : List Float)
    (total share : Share) :
    (total.plus share).buckets settings labels bounds =
      (total.buckets settings labels bounds).zipWith (fun a b => (a.1, a.2 + b.2))
        (share.buckets settings labels bounds) := by
  have hzip (edges : List (String × String)) (xs ys : List Nat) :
      (edges.zip (xs.zipWith (· + ·) ys)).map (fun bucket =>
          (Histogram.bucketLabels labels bucket.1, (bucket.2 : Rat))) =
        ((edges.zip xs).map fun bucket =>
            (Histogram.bucketLabels labels bucket.1, (bucket.2 : Rat))).zipWith
          (fun a b => (a.1, a.2 + b.2))
          ((edges.zip ys).map fun bucket =>
            (Histogram.bucketLabels labels bucket.1, (bucket.2 : Rat))) := by
    induction edges generalizing xs ys with
    | nil => rfl
    | cons edge rest ih =>
      cases xs with
      | nil => rfl
      | cons x xs =>
        cases ys with
        | nil => rfl
        | cons y ys =>
          simp only [List.zipWith_cons_cons, List.zip_cons_cons, List.map_cons, Nat.cast_add, ih]
  unfold buckets
  split
  · exact hzip _ _ _
  · rfl

theorem nonneg_of_mem_buckets {line : Labels × Rat}
    (h : line ∈ share.buckets settings labels bounds) : 0 ≤ line.2 := by
  unfold buckets at h
  split at h
  · obtain ⟨bucket, -, rfl⟩ := List.mem_map.mp h
    exact Nat.cast_nonneg _
  · exact absurd h List.not_mem_nil

/-- The lines of a report are of distinct series. -/
theorem nodup_lines (settings : Settings)
    (hl : ∀ tag ∈ labels.tags, tag.name ≠ "lower_bound")
    (hf : ∀ bound ∈ bounds, bound.isFinite = true) (hs : bounds.Pairwise (· < ·))
    (hc : share.counts.length = bounds.length + 1) :
    ((share.lines settings labels bounds).map (·.1.series)).Nodup := by
  have hname (suffix : String) (h : suffix ≠ "bucket") (edge : String × String) :
      (labels.suffixed suffix).series ≠ (Histogram.bucketLabels labels edge).series := by
    intro e
    exact h (Labels.name_suffixed_inj (Labels.series_eq_iff.mp e).1)
  have hmap : (share.lines settings labels bounds).map (·.1.series) =
      ((share.lines settings labels bounds).map Prod.fst).map Labels.series := by
    rw [List.map_map]
    rfl
  rw [hmap, lines, List.map_append, List.map_append, fst_buckets settings labels hc,
    List.nodup_append]
  refine ⟨?_, ?_, ?_⟩
  · unfold statistics
    split
    · have := labels.series_suffixed_ne (show "count" ≠ "sum" by decide)
      simpa using this
    · exact List.nodup_nil
  · split
    · rw [List.map_map]
      exact Histogram.nodup_series_buckets hl hf hs
    · exact List.nodup_nil
  · intro series hstat other hbucket
    split at hbucket
    · rw [List.map_map] at hbucket
      obtain ⟨edge, -, rfl⟩ := List.mem_map.mp hbucket
      unfold statistics at hstat
      split at hstat
      · simp only [List.map_cons, List.map_nil, List.mem_cons, List.not_mem_nil, or_false]
          at hstat
        rcases hstat with rfl | rfl
        · exact hname "count" (by decide) edge
        · exact hname "sum" (by decide) edge
      · exact absurd hstat List.not_mem_nil
    · exact absurd hbucket List.not_mem_nil

end Lines

/-- Every line of a total is stored, with its time. -/
def Holds (settings : Settings) (labels : Labels) (bounds : List Float) (total : Share)
    (tracker : Tracker Rat) : Prop :=
  ∀ line ∈ total.lines settings labels bounds,
    tracker.stored? line.1.series = some ⟨total.time, line.2⟩

section Runs

variable {settings : Settings} (hmode : settings.bucketMode ≠ .distributions) {labels : Labels}
  (hl : ∀ tag ∈ labels.tags, tag.name ≠ "lower_bound") {bounds : List Float}
  (hf : ∀ bound ∈ bounds, bound.isFinite = true) (hs : bounds.Pairwise (· < ·)) {share : Share}
  (hc : share.counts.length = bounds.length + 1)

include hmode hl hf hs hc

theorem nodup_samples :
    (((share.histogram bounds).plan settings labels share.time .cumulative).samples.map
      Sample.series).Nodup := by
  rw [samples_cumulative hmode labels hc, List.map_map]
  exact nodup_lines settings hl hf hs hc

/-- After a report that is newer than all that is stored of its lines, they are stored. -/
theorem holds_run {tracker : Tracker Rat}
    (hnew : ∀ line ∈ share.lines settings labels bounds, ∀ held,
      tracker.stored? line.1.series = some held → held.time < share.time) (now : Nat) :
    share.Holds settings labels bounds
      (Plan.run now ((share.histogram bounds).plan settings labels share.time .cumulative)
        tracker).2 := by
  intro line hline
  have hm : share.sampleOf line ∈
      ((share.histogram bounds).plan settings labels share.time .cumulative).samples := by
    rw [samples_cumulative hmode labels hc]
    exact List.mem_map_of_mem hline
  have hget := Tracker.get?_observeAll_of_nodup tracker now
    (nodup_samples hmode hl hf hs hc) hm
  rw [Plan.tracker_run, Tracker.stored?]
  rw [show line.1.series = (share.sampleOf line).series from rfl, hget, Option.map_some,
    Tracker.stored_entryAfter]
  congr 1
  cases hstored : (tracker.entries.get? (share.sampleOf line).series).map Entry.stored with
  | none => rfl
  | some held =>
    have := hnew line hline held hstored
    exact if_neg (Nat.not_le_of_lt this)

end Runs

section Outcomes

variable {tracker : Tracker Rat} {time next : Nat}

/-- Lines that go through the tracker one by one give what was added to each of them. -/
theorem join_track (ht : time < next) {totals shares : List (Labels × Rat)}
    (hfst : totals.map Prod.fst = shares.map Prod.fst)
    (hheld : ∀ line ∈ totals, tracker.stored? line.1.series = some ⟨time, line.2⟩)
    (hpos : ∀ line ∈ shares, 0 ≤ line.2) :
    Outcome.join ((totals.zipWith (fun a b => (a.1, a.2 + b.2)) shares).map fun line =>
        Step.outcomeFrom tracker (.track .part ⟨line.1, next, line.2⟩)) =
      ⟨shares.map fun line => .at next line.1 (.count line.2), 0, []⟩ := by
  induction totals generalizing shares with
  | nil =>
    rw [List.map_nil, eq_comm, List.map_eq_nil_iff] at hfst
    rw [hfst]
    rfl
  | cons first rest ih =>
    cases shares with
    | nil => exact absurd hfst (by simp)
    | cons share more =>
      rw [List.map_cons, List.map_cons, List.cons.injEq] at hfst
      obtain ⟨hfirst, hrest⟩ := List.forall_mem_cons.mp hheld
      obtain ⟨hs, hmore⟩ := List.forall_mem_cons.mp hpos
      have hchange : tracker.changeFor ⟨first.1, next, first.2 + share.2⟩ =
          .step first.2 (first.2 + share.2) (next - time) :=
        Tracker.changeFor_of_stored _ hfirst ht
      have hone : Step.outcomeFrom tracker
          (.track .part ⟨first.1, next, first.2 + share.2⟩) =
            ⟨[.at next share.1 (.count share.2)], 0, []⟩ := by
        show Role.outcome .part _ (tracker.changeFor _) = _
        rw [hchange, Role.outcome_step_add (by decide) _ hs, hfst.1]
      rw [List.zipWith_cons_cons, List.map_cons, Outcome.join_cons, hone, ih hfst.2 hrest hmore]
      rfl

/-- Count and sum, which go through the tracker together, give what was added to both. -/
theorem outcomeFrom_aggregate (ht : time < next) (labels : Labels) {count sum added more : Rat}
    (hcount : tracker.stored? (labels.suffixed "count").series = some ⟨time, count⟩)
    (hsum : tracker.stored? (labels.suffixed "sum").series = some ⟨time, sum⟩)
    (ha : 0 ≤ added) (hm : 0 ≤ more) :
    Step.outcomeFrom tracker
        (.aggregate ⟨labels, next, count + added, some (sum + more), none, none⟩) =
      ⟨[.at next (labels.suffixed "count") (.count added),
        .at next (labels.suffixed "sum") (.count more)], 0, []⟩ := by
  have hchanges : ([⟨labels.suffixed "count", next, count + added⟩,
      ⟨labels.suffixed "sum", next, sum + more⟩] : List (Sample Rat)).map tracker.changeFor =
        [.step count (count + added) (next - time), .step sum (sum + more) (next - time)] := by
    have hfirst := Tracker.changeFor_of_stored
      ⟨labels.suffixed "count", next, count + added⟩ hcount ht
    have hsecond := Tracker.changeFor_of_stored
      ⟨labels.suffixed "sum", next, sum + more⟩ hsum ht
    rw [List.map_cons, List.map_cons, List.map_nil, hfirst, hsecond]
  have hc := Change.increase?_step_add count ha (next - time)
  have hs := Change.increase?_step_add sum hm (next - time)
  show Aggregates.outcome _ (List.map tracker.changeFor
    [⟨labels.suffixed "count", next, count + added⟩,
      ⟨labels.suffixed "sum", next, sum + more⟩]) = _
  rw [hchanges]
  have hne : (Statistic.sum == Statistic.count) = false := rfl
  simp [Aggregates.outcome, Aggregates.values, List.lookup_cons, hne, hc, hs, Change.isLate,
    Aggregates.point, Aggregates.labelsOf, Statistic.name, Statistic.reading]

end Outcomes

section Runs

variable {settings : Settings} (hmode : settings.bucketMode ≠ .distributions) {labels : Labels}
  (hl : ∀ tag ∈ labels.tags, tag.name ≠ "lower_bound") {bounds : List Float}
  (hf : ∀ bound ∈ bounds, bound.isFinite = true) (hs : bounds.Pairwise (· < ·))

/-- What a report of a share gives. -/
def outcome (settings : Settings) (labels : Labels) (bounds : List Float) (share : Share) :
    Outcome Rat :=
  ⟨(share.lines settings labels bounds).map share.pointOf, 0, []⟩

include hmode in
theorem outcome_run_delta {share : Share} (hc : share.counts.length = bounds.length + 1)
    (now : Nat) (tracker : Tracker Rat) :
    (Plan.run now ((share.histogram bounds).plan settings labels share.time .delta) tracker).1 =
      share.outcome settings labels bounds := by
  rw [plan_delta hmode labels hc]
  exact Plan.outcome_run_emit now _ tracker

include hmode hl hf hs

/-- The first report of a total gives nothing. -/
theorem outcome_run_first {share : Share} (hc : share.counts.length = bounds.length + 1)
    (now : Nat) {tracker : Tracker Rat}
    (h : ∀ line ∈ share.lines settings labels bounds, tracker.stored? line.1.series = none) :
    (Plan.run now ((share.histogram bounds).plan settings labels share.time .cumulative)
      tracker).1 = .empty := by
  rw [Plan.outcome_run_of_nodup now (nodup_samples hmode hl hf hs hc)]
  apply Outcome.join_eq_empty
  intro step hstep
  apply Step.outcomeFrom_of_unseen
  · rw [plan_cumulative hmode labels hc] at hstep
    rcases List.mem_append.mp hstep with hm | hm
    · split at hm
      · rw [List.mem_singleton.mp hm]
        rfl
      · exact absurd hm List.not_mem_nil
    · obtain ⟨line, -, rfl⟩ := List.mem_map.mp hm
      rfl
  · intro sample hsample
    have hmem : sample ∈
        ((share.histogram bounds).plan settings labels share.time .cumulative).samples :=
      List.mem_flatMap.mpr ⟨step, hstep, hsample⟩
    rw [samples_cumulative hmode labels hc] at hmem
    obtain ⟨line, hline, rfl⟩ := List.mem_map.mp hmem
    exact h line hline

omit hmode hl hf hs in
/-- The statistics of a later total give those of the share that was added to it. -/
theorem join_statistics {total share : Share} (htime : total.time < share.time)
    (hsum : 0 ≤ share.sum) {tracker : Tracker Rat}
    (h : total.Holds settings labels bounds tracker) :
    Outcome.join
        ((if settings.showsStatistics then [Step.aggregate ((total.plus share).aggregates labels)]
          else []).map (Step.outcomeFrom tracker)) =
      ⟨(share.statistics settings labels).map share.pointOf, 0, []⟩ := by
  have hheld : ∀ line ∈ total.statistics settings labels,
      tracker.stored? line.1.series = some ⟨total.time, line.2⟩ :=
    fun line hm => h line (List.mem_append_left _ hm)
  unfold statistics at hheld ⊢
  by_cases hshow : settings.showsStatistics = true
  · rw [if_pos hshow] at hheld
    rw [if_pos hshow, if_pos hshow]
    have hcount := hheld _ List.mem_cons_self
    have hother := hheld _ (List.mem_cons_of_mem _ List.mem_cons_self)
    have hone := outcomeFrom_aggregate htime labels hcount hother
      (Nat.cast_nonneg (α := Rat) share.count) hsum
    have ha : (total.plus share).aggregates labels = ⟨labels, share.time,
        (total.count : Rat) + share.count, some (total.sum + share.sum), none, none⟩ := by
      unfold aggregates plus
      rw [Nat.cast_add]
    rw [List.map_cons, List.map_nil, Outcome.join_cons, ha, hone]
    rfl
  · rw [if_neg hshow, if_neg hshow]
    rfl

omit hmode hl hf hs in
/-- The buckets of a later total give those of the share that was added to it. -/
theorem join_buckets {total share : Share} (ht : total.counts.length = bounds.length + 1)
    (hc : share.counts.length = bounds.length + 1) (htime : total.time < share.time)
    {tracker : Tracker Rat} (h : total.Holds settings labels bounds tracker) :
    Outcome.join
        ((((total.plus share).buckets settings labels bounds).map fun line =>
          Step.track .part ((total.plus share).sampleOf line)).map (Step.outcomeFrom tracker)) =
      ⟨(share.buckets settings labels bounds).map share.pointOf, 0, []⟩ := by
  rw [List.map_map, buckets_plus]
  apply join_track htime
  · rw [fst_buckets settings labels ht, fst_buckets settings labels hc]
  · exact fun line hm => h line (List.mem_append_right _ hm)
  · exact fun line hm => nonneg_of_mem_buckets hm

/-- A later report of a total gives what the share gives that was added to it. -/
theorem outcome_run_next {total share : Share} (ht : total.counts.length = bounds.length + 1)
    (hc : share.counts.length = bounds.length + 1) (htime : total.time < share.time)
    (hsum : 0 ≤ share.sum) (now : Nat) {tracker : Tracker Rat}
    (h : total.Holds settings labels bounds tracker) :
    (Plan.run now (((total.plus share).histogram bounds).plan settings labels
      (total.plus share).time .cumulative) tracker).1 = share.outcome settings labels bounds := by
  have hplus := length_counts_plus ht hc
  rw [Plan.outcome_run_of_nodup now (nodup_samples hmode hl hf hs hplus),
    plan_cumulative hmode labels hplus, List.map_append, Outcome.join_append,
    join_statistics htime hsum h, join_buckets ht hc htime h, outcome, lines, List.map_append]
  rfl

/-- The next total is held after its report. -/
theorem holds_run_next {total share : Share} (ht : total.counts.length = bounds.length + 1)
    (hc : share.counts.length = bounds.length + 1) (htime : total.time < share.time) (now : Nat)
    {tracker : Tracker Rat} (h : total.Holds settings labels bounds tracker) :
    (total.plus share).Holds settings labels bounds
      (Plan.run now (((total.plus share).histogram bounds).plan settings labels
        (total.plus share).time .cumulative) tracker).2 := by
  have hplus := length_counts_plus ht hc
  apply holds_run hmode hl hf hs hplus
  intro line hline held hheld
  have hm : line.1 ∈ ((total.plus share).lines settings labels bounds).map Prod.fst :=
    List.mem_map_of_mem hline
  rw [fst_lines_eq settings labels hplus ht] at hm
  obtain ⟨last, hlast, he⟩ := List.mem_map.mp hm
  rw [← he, h last hlast] at hheld
  cases hheld
  exact htime

/-- Totals give, report by report, what the shares give that they grow by. -/
theorem runEach_runningTotals {shares : List Share} {total : Share}
    (ht : total.counts.length = bounds.length + 1)
    (hc : ∀ share ∈ shares, share.counts.length = bounds.length + 1)
    (htime : (total.time :: shares.map Share.time).Pairwise (· < ·))
    (hsum : ∀ share ∈ shares, 0 ≤ share.sum) {tracker : Tracker Rat}
    (h : total.Holds settings labels bounds tracker) :
    (Plan.runEach ((total.runningTotals shares).map (timed settings labels bounds .cumulative))
      tracker).1 = shares.map (outcome settings labels bounds) := by
  induction shares generalizing total tracker with
  | nil => rfl
  | cons share rest ih =>
    obtain ⟨hfirst, hrest⟩ := List.pairwise_cons.mp htime
    have hlt : total.time < share.time := hfirst share.time List.mem_cons_self
    obtain ⟨hcs, hcr⟩ := List.forall_mem_cons.mp hc
    obtain ⟨hpos, hposr⟩ := List.forall_mem_cons.mp hsum
    have hnext := outcome_run_next hmode hl hf hs ht hcs hlt hpos share.now h
    have hholds := holds_run_next hmode hl hf hs ht hcs hlt share.now h
    have hmore := ih (length_counts_plus ht hcs) hcr hrest hposr hholds
    rw [runningTotals, List.map_cons, Plan.fst_runEach_cons, List.map_cons, ← hmore]
    exact congrArg (· :: _) hnext

omit hl hf hs in
theorem runEach_shares {shares : List Share}
    (hc : ∀ share ∈ shares, share.counts.length = bounds.length + 1) (tracker : Tracker Rat) :
    (Plan.runEach (shares.map (timed settings labels bounds .delta)) tracker).1 =
      shares.map (outcome settings labels bounds) := by
  induction shares generalizing tracker with
  | nil => rfl
  | cons share rest ih =>
    obtain ⟨hcs, hrest⟩ := List.forall_mem_cons.mp hc
    rw [List.map_cons, Plan.fst_runEach_cons, ih hrest, List.map_cons]
    exact congrArg (· :: _) (outcome_run_delta hmode hcs share.now tracker)

/-- A histogram that is reported by running totals gives nothing for the first one, and then what it
gives when it is reported by shares. -/
theorem runEach_agree {shares : List Share} {baseline : Share}
    (ht : baseline.counts.length = bounds.length + 1)
    (hc : ∀ share ∈ shares, share.counts.length = bounds.length + 1)
    (htime : (baseline.time :: shares.map Share.time).Pairwise (· < ·))
    (hsum : ∀ share ∈ shares, 0 ≤ share.sum) (ttl : Nat) :
    (Plan.runEach ((baseline :: baseline.runningTotals shares).map
        (timed settings labels bounds .cumulative)) (.empty ttl)).1 =
      .empty :: (Plan.runEach (shares.map (timed settings labels bounds .delta))
        (.empty ttl)).1 := by
  have hnone (series : Series) : (Tracker.empty ttl : Tracker Rat).stored? series = none := rfl
  have hfirst := outcome_run_first hmode hl hf hs ht baseline.now fun line _ => hnone _
  have hholds := holds_run hmode hl hf hs ht
    (fun line _ held hh => absurd ((hnone _).symm.trans hh) (Option.some_ne_none held).symm)
    baseline.now
  have hrest := runEach_runningTotals hmode hl hf hs ht hc htime hsum hholds
  rw [runEach_shares hmode hc, ← hrest, List.map_cons, Plan.fst_runEach_cons]
  exact congrArg (· :: _) hfirst

end Runs

end Share

end MetricPoints
