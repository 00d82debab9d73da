import MetricPoints.Proofs.Binary64.Arithmetic
import MetricPoints.Proofs.Restarts

/-
  Extrema that are told track those that are reported. After every report the tracker stores the
  count, the sum and the extrema of that report (`Steady.stored`), so that the next report is
  complete and an extremum is told if it is not the one before it (`Steady.told`). What was told
  last is then the latest extremum, or no different from it as a number: what is passed over is
  only what was told already.

  Main statement: `Histogram.told_extrema_track_reported_ones`.
-/

namespace MetricPoints

variable {V : Type}

namespace Stats

/-- The value of a statistic, if it is reported. -/
def value? [Amount V] (stats : Stats V) : Statistic → Option V
  | .count => some (Amount.ofNat stats.count)
  | .sum => stats.sum
  | .min => stats.min
  | .max => stats.max

/-- Says that the sum and the extrema are reported and finite. -/
def Whole [Amount V] (stats : Stats V) : Prop :=
  ∀ statistic ∈ [Statistic.sum, .min, .max],
    ∃ value, stats.value? statistic = some value ∧ Amount.finite value = true

variable [Amount V] {stats : Stats V} (h : stats.Whole)

include h

theorem Whole.exists_value? (statistic : Statistic) :
    ∃ value, stats.value? statistic = some value := by
  cases statistic with
  | count => exact ⟨_, rfl⟩
  | sum | min | max => exact (h _ (by decide)).imp fun _ => And.left

/-- Where aggregations are reported, nothing of them is left out. -/
theorem Whole.value?_of {settings : Settings} (haggregations : settings.aggregations = true)
    (labels : Labels) (time : Nat) (statistic : Statistic) :
    (Aggregates.of settings labels time stats).value? statistic = stats.value? statistic := by
  have hfinite (hs : statistic ∈ [Statistic.sum, .min, .max]) :
      (stats.value? statistic).filter Amount.finite = stats.value? statistic := by
    obtain ⟨value, hvalue, hfinite⟩ := h statistic hs
    rw [hvalue, Option.filter_some_pos hfinite]
  cases statistic with
  | count => rfl
  | sum => exact hfinite (by decide)
  | min | max => exact (if_pos haggregations).trans (hfinite (by decide))

end Stats

/-- Extrema stand. -/
theorem Statistic.reading_extremum {extremum : Statistic} (hx : extremum ∈ [Statistic.min, .max]) :
    (Statistic.reading · extremum : V → Reading V) = .gauge := by
  simp only [List.mem_cons, List.not_mem_nil, or_false] at hx
  rcases hx with rfl | rfl <;> rfl

namespace Aggregates

variable [Amount V]

variable (a : Aggregates V) {tracker : Tracker V}

/-- Statistics are complete where all of them are newer than what is stored. -/
theorem complete_of_stored (h : ∀ statistic,
    (tracker.stored? (a.labelsOf statistic).series).any (·.time < a.time) = true) :
    a.complete tracker = true := by
  have hincrease (statistic : Statistic) :
      (a.increase? tracker statistic).isSome = (a.value? statistic).isSome := by
    rw [isSome_increase?, h, Bool.and_true]
  rw [complete, hincrease, hincrease]
  show (true && (a.sum.isNone || a.sum.isSome)) = true
  cases a.sum <;> rfl

section Extremum

variable {extremum : Statistic} (hx : extremum ∈ [Statistic.min, .max])

include hx

/-- Complete statistics tell an extremum that has moved. -/
theorem pointsAt_extremum (tracker : Tracker V) :
    pointsAt (a.labelsOf extremum) (Step.outcomeFrom tracker (.aggregate a)).points =
      if a.complete tracker then
        ((a.value? extremum).filter fun _ =>
          (a.change? tracker extremum).any Change.moved).toList.map (a.point extremum)
      else [] := by
  rw [points_outcomeFrom]
  split
  · simp only [pointsAt_append, pointsAt_map_point]
    simp only [List.mem_cons, List.not_mem_nil, or_false] at hx
    rcases hx with rfl | rfl
    · simp only [reduceCtorEq, if_false, if_true, List.nil_append, List.append_nil]
      rfl
    · simp only [reduceCtorEq, if_false, if_true, List.nil_append]
      rfl
  · rfl

theorem pointsAt_extremum_of_unseen (h : tracker.stored? (a.labelsOf .count).series = none) :
    pointsAt (a.labelsOf extremum) (Step.outcomeFrom tracker (.aggregate a)).points = [] := by
  have hcount : a.complete tracker = false := by
    rw [complete, isSome_increase?, h]
    rfl
  rw [a.pointsAt_extremum hx, hcount]
  rfl

/-- An extremum is told if it differs from the one that is stored. -/
theorem pointsAt_extremum_of_stored (h : ∀ statistic,
      (tracker.stored? (a.labelsOf statistic).series).any (·.time < a.time) = true)
    {held : Observation V} (hheld : tracker.stored? (a.labelsOf extremum).series = some held) :
    pointsAt (a.labelsOf extremum) (Step.outcomeFrom tracker (.aggregate a)).points =
      ((a.value? extremum).filter (Amount.differs · held.value)).toList.map
        (a.point extremum) := by
  have hlt : held.time < a.time := by
    have hnewer := h extremum
    rw [hheld] at hnewer
    exact of_decide_eq_true hnewer
  rw [a.pointsAt_extremum hx, if_pos (a.complete_of_stored h), change?_eq, hheld]
  simp only [if_neg (Nat.not_le_of_lt hlt)]
  cases a.value? extremum <;> rfl

end Extremum

end Aggregates

/-! ## Runs of reports -/

/-- The points that an episode gives at a station. -/
def Episode.points [Amount V] (settings : Settings) (labels : Labels) (station : Station V) :
    Episode V → List (Point V)
  | .report time histogram =>
    (Plan.run station.now (histogram.plan settings labels time .cumulative)
      station.tracker).1.points
  | .meanwhile _ => []

/-- The reports of a run, in order. -/
def reportsIn (episodes : List (Episode V)) : List (Nat × Histogram V) :=
  episodes.filterMap Episode.report?

theorem reportsIn_append (episodes more : List (Episode V)) :
    reportsIn (episodes ++ more) = reportsIn episodes ++ reportsIn more :=
  List.filterMap_append ..

namespace Histogram

variable [Amount V]

/-- The value of a statistic that the last report gave, with the time of the report. -/
def latest? (statistic : Statistic) (reports : List (Nat × Histogram V)) :
    Option (Observation V) :=
  reports.getLast?.bind fun report =>
    (report.2.stats.value? statistic).map fun value => ⟨report.1, value⟩

theorem latest?_append_report (statistic : Statistic) (reports : List (Nat × Histogram V))
    (time : Nat) (histogram : Histogram V) :
    latest? statistic (reports ++ [(time, histogram)]) =
      (histogram.stats.value? statistic).map fun value => ⟨time, value⟩ := by
  rw [latest?, List.getLast?_concat]
  rfl

/-- The value of a statistic in one more report, if it differs from the one before. -/
def movedTo? (statistic : Statistic) (reports : List (Nat × Histogram V))
    (histogram : Histogram V) : Option V :=
  (latest? statistic reports).bind fun held =>
    (histogram.stats.value? statistic).filter (Amount.differs · held.value)

/-- A run of whole reports, newer and newer, from a station that knows none of the statistics, never
forgets one, and observes them in the reports only. -/
structure Steady (settings : Settings) (labels : Labels) (station : Station V)
    (episodes : List (Episode V)) : Prop where
  unknown (statistic : Statistic) :
    station.tracker.knows (labels.suffixed statistic.name).series = false
  retained (statistic : Statistic) :
    station.Retains (labels.suffixed statistic.name).series
      (episodes.map (Episode.action settings labels))
  alone (statistic : Statistic) : ∀ action, .meanwhile action ∈ episodes →
    action.observations (labels.suffixed statistic.name).series = []
  newer : ((reportsIn episodes).map Prod.fst).Pairwise (· < ·)
  whole : ∀ report ∈ reportsIn episodes, report.2.stats.Whole

namespace Steady

variable {settings : Settings} {labels : Labels} {station : Station V}
  {episodes more : List (Episode V)}

theorem of_append (h : Steady settings labels station (episodes ++ more)) :
    Steady settings labels station episodes where
  unknown := h.unknown
  retained statistic := (List.map_append ▸ h.retained statistic).of_append
  alone statistic action ha := h.alone statistic action (List.mem_append_left _ ha)
  newer := by
    have hnewer := h.newer
    rw [reportsIn_append, List.map_append] at hnewer
    exact (List.pairwise_append.mp hnewer).1
  whole report hr := h.whole report (reportsIn_append episodes more ▸ List.mem_append_left _ hr)

theorem exists_latest? (h : Steady settings labels station episodes)
    (hne : reportsIn episodes ≠ []) (statistic : Statistic) :
    ∃ held, latest? statistic (reportsIn episodes) = some held := by
  have hlast := List.getLast?_eq_some_getLast hne
  obtain ⟨value, hvalue⟩ := (h.whole _ (List.mem_of_getLast? hlast)).exists_value? statistic
  exact ⟨⟨_, value⟩, by rw [latest?, hlast, Option.bind_some, hvalue]; rfl⟩

theorem finite_latest? (h : Steady settings labels station episodes) {statistic : Statistic}
    (hs : statistic ∈ [Statistic.sum, .min, .max]) {held : Observation V}
    (hheld : latest? statistic (reportsIn episodes) = some held) :
    Amount.finite held.value = true := by
  obtain ⟨report, hreport, hmap⟩ := Option.bind_eq_some_iff.mp hheld
  obtain ⟨value, hvalue, rfl⟩ := Option.map_eq_some_iff.mp hmap
  obtain ⟨other, hother, hfinite⟩ := h.whole report (List.mem_of_getLast? hreport) statistic hs
  rw [hvalue, Option.some_inj] at hother
  exact hother ▸ hfinite

section Last

variable {time : Nat} {histogram : Histogram V}
  (h : Steady settings labels station (episodes ++ [.report time histogram]))

include h

theorem whole_last : histogram.stats.Whole := by
  apply h.whole (time, histogram)
  rw [reportsIn_append]
  exact List.mem_append_right _ List.mem_cons_self

theorem time_lt {statistic : Statistic} {held : Observation V}
    (hheld : latest? statistic (reportsIn episodes) = some held) : held.time < time := by
  obtain ⟨report, hreport, hvalue⟩ := Option.bind_eq_some_iff.mp hheld
  obtain ⟨value, -, rfl⟩ := Option.map_eq_some_iff.mp hvalue
  have hnewer := h.newer
  rw [reportsIn_append, List.map_append, List.pairwise_append] at hnewer
  exact hnewer.2.2 _ (List.mem_map_of_mem (List.mem_of_getLast? hreport)) _ List.mem_cons_self

end Last

variable (haggregations : settings.aggregations = true)

include haggregations

/-- After every report the statistics of that report are stored. -/
theorem stored (h : Steady settings labels station episodes) (statistic : Statistic) :
    (station.after (episodes.map (Episode.action settings labels))).tracker.stored?
        (labels.suffixed statistic.name).series =
      latest? statistic (reportsIn episodes) := by
  -- by the last episode: nothing else is observed, and a report is newer than what is stored
  induction episodes using List.reverseRecOn with
  | nil => exact Station.stored?_eq_none (h.unknown statistic)
  | append_singleton episodes episode ih =>
    have hbefore := ih h.of_append
    have hretained := h.retained statistic
    rw [List.map_append] at hretained ⊢
    rw [Station.after_append]
    cases episode with
    | meanwhile action =>
      have hnone : Action.observations (labels.suffixed statistic.name).series action = [] :=
        h.alone statistic action (List.mem_append_right _ List.mem_cons_self)
      have hafter := Station.stored?_act_of_not_forgets hretained.after_of_append.1
      rw [Episode.action, hnone] at hafter
      rw [reportsIn_append, show reportsIn [.meanwhile action] = [] from rfl, List.append_nil]
      exact hafter.trans hbefore
    | report time histogram =>
      obtain ⟨value, hvalue⟩ := h.whole_last.exists_value? statistic
      have hafter := histogram.stored?_run_plan (showsStatistics_of_aggregations haggregations)
        labels time (station.after (episodes.map (Episode.action settings labels))).now
        (station.after (episodes.map (Episode.action settings labels))).tracker statistic
      rw [h.whole_last.value?_of haggregations, hvalue, hbefore] at hafter
      rw [reportsIn_append, show reportsIn [.report time histogram] = [(time, histogram)] from rfl,
        latest?_append_report, hvalue]
      refine hafter.trans (congrArg some ?_)
      cases hheld : latest? statistic (reportsIn episodes) with
      | none => rfl
      | some held => exact if_neg (Nat.not_le_of_lt (h.time_lt hheld))

/-- A report tells nothing of an extremum if it is the first one; else it tells the extremum if it
differs from that of the report before it. -/
theorem told {time : Nat} {histogram : Histogram V}
    (h : Steady settings labels station (episodes ++ [.report time histogram]))
    {extremum : Statistic} (hx : extremum ∈ [Statistic.min, .max]) :
    pointsAt (labels.suffixed extremum.name)
        (reported settings labels station episodes time histogram) =
      (movedTo? extremum (reportsIn episodes) histogram).toList.map
        fun value => .at time (labels.suffixed extremum.name) (.gauge value) := by
  let before := station.after (episodes.map (Episode.action settings labels))
  let a := Aggregates.of settings labels time histogram.stats
  have hstored (statistic : Statistic) :
      before.tracker.stored? (a.labelsOf statistic).series =
        latest? statistic (reportsIn episodes) := h.of_append.stored haggregations statistic
  have hvalue : a.value? extremum = histogram.stats.value? extremum :=
    h.whole_last.value?_of haggregations labels time extremum
  refine (histogram.pointsAt_run_plan (showsStatistics_of_aggregations haggregations) labels time
    before.now before.tracker extremum).trans ?_
  by_cases hne : reportsIn episodes = []
  · have hnone (statistic : Statistic) : latest? statistic (reportsIn episodes) = none := by
      rw [hne]
      rfl
    rw [movedTo?, hnone]
    exact a.pointsAt_extremum_of_unseen hx ((hstored .count).trans (hnone .count))
  · obtain ⟨held, hheld⟩ := h.of_append.exists_latest? hne extremum
    have hnewer (statistic : Statistic) :
        (before.tracker.stored? (a.labelsOf statistic).series).any (·.time < a.time) = true := by
      obtain ⟨other, ho⟩ := h.of_append.exists_latest? hne statistic
      rw [hstored, ho]
      exact decide_eq_true (h.time_lt ho)
    have hpoint : a.point extremum =
        fun value => .at time (labels.suffixed extremum.name) (.gauge value) :=
      funext fun value => congrArg (Point.at time (labels.suffixed extremum.name))
        (congrFun (Statistic.reading_extremum hx) value)
    rw [movedTo?, hheld, Option.bind_some, ← hvalue, ← hpoint]
    exact a.pointsAt_extremum_of_stored hx hnewer ((hstored extremum).trans hheld)

end Steady

/-! ## What was told last -/

/-- The points of a run, in order. -/
def pointsOver (settings : Settings) (labels : Labels) (station : Station V) :
    List (Episode V) → List (Point V)
  | [] => []
  | episode :: rest =>
    episode.points settings labels station ++
      pointsOver settings labels (station.act (episode.action settings labels)).2 rest

theorem pointsOver_concat (settings : Settings) (labels : Labels) (station : Station V)
    (episodes : List (Episode V)) (episode : Episode V) :
    pointsOver settings labels station (episodes ++ [episode]) =
      pointsOver settings labels station episodes ++ episode.points settings labels
        (station.after (episodes.map (Episode.action settings labels))) := by
  induction episodes generalizing station with
  | nil => exact List.append_nil _
  | cons first rest ih =>
    rw [List.cons_append, pointsOver, ih, pointsOver, List.append_assoc, List.map_cons,
      Station.after_cons]

/-- The values that points tell of a statistic, in order. -/
def valuesTold (labels : Labels) (statistic : Statistic) (points : List (Point V)) : List V :=
  (pointsAt (labels.suffixed statistic.name) points).filterMap (·.reading.scalar?)

omit [Amount V] in
theorem valuesTold_append (labels : Labels) (statistic : Statistic) (points more : List (Point V)) :
    valuesTold labels statistic (points ++ more) =
      valuesTold labels statistic points ++ valuesTold labels statistic more := by
  rw [valuesTold, pointsAt_append, List.filterMap_append]
  rfl

theorem Steady.valuesTold_report {settings : Settings} {labels : Labels} {station : Station V}
    {episodes : List (Episode V)} (haggregations : settings.aggregations = true) {time : Nat}
    {histogram : Histogram V}
    (h : Steady settings labels station (episodes ++ [.report time histogram]))
    {extremum : Statistic} (hx : extremum ∈ [Statistic.min, .max]) :
    valuesTold labels extremum (reported settings labels station episodes time histogram) =
      (movedTo? extremum (reportsIn episodes) histogram).toList := by
  rw [valuesTold, h.told haggregations hx, List.filterMap_map]
  exact List.filterMap_some

/-- The value of a statistic that the first report gave. -/
def first? (statistic : Statistic) (reports : List (Nat × Histogram V)) : Option V :=
  reports.head?.bind (·.2.stats.value? statistic)

namespace Steady

open Binary64 (exact)

variable {settings : Settings} (haggregations : settings.aggregations = true) {labels : Labels}
  {station : Station Float} {episodes : List (Episode Float)} {extremum : Statistic}
  (hx : extremum ∈ [Statistic.min, .max])

include hx

/-- After the first report, an extremum has moved if it is another number. -/
theorem movedTo?_eq {time : Nat} {histogram : Histogram Float}
    (h : Steady settings labels station (episodes ++ [.report time histogram]))
    (hne : reportsIn episodes ≠ []) :
    ∃ held value, latest? extremum (reportsIn episodes) = some held ∧
      histogram.stats.value? extremum = some value ∧
      movedTo? extremum (reportsIn episodes) histogram =
        if exact value = exact held.value then none else some value := by
  have hx' : extremum ∈ [Statistic.sum, .min, .max] := List.mem_cons_of_mem _ hx
  obtain ⟨held, hheld⟩ := h.of_append.exists_latest? hne extremum
  obtain ⟨value, hvalue, hfinite⟩ := h.whole_last extremum hx'
  have hdiffers : Amount.differs value held.value = true ↔ exact value ≠ exact held.value :=
    Binary64.bne_iff_exact_ne hfinite (h.of_append.finite_latest? hx' hheld)
  refine ⟨held, value, hheld, hvalue, ?_⟩
  rw [movedTo?, hheld, hvalue, Option.bind_some, Option.filter_some]
  split
  · rename_i hmoved
    rw [if_neg (hdiffers.mp hmoved)]
  · rename_i hstill
    rw [if_pos (not_not.mp fun hne => hstill (hdiffers.mpr hne))]

include haggregations

/-- What was told last is no different from what was reported last. Before anything was told, the
first report stands for it. -/
theorem exact_last_told (h : Steady settings labels station episodes) :
    ((valuesTold labels extremum (pointsOver settings labels station episodes)).getLast?.or
        (first? extremum (reportsIn episodes))).map exact =
      (latest? extremum (reportsIn episodes)).map (exact ·.value) := by
  induction episodes using List.reverseRecOn with
  | nil => rfl
  | append_singleton episodes episode ih =>
    have hbefore := ih h.of_append
    rw [pointsOver_concat, valuesTold_append, reportsIn_append]
    cases episode with
    | meanwhile action =>
      have hnone : valuesTold labels extremum (Episode.points settings labels
          (station.after (episodes.map (Episode.action settings labels))) (.meanwhile action)) =
            [] := rfl
      rw [hnone, show reportsIn [.meanwhile action] = [] from rfl, List.append_nil,
        List.append_nil]
      exact hbefore
    | report time histogram =>
      have htold : valuesTold labels extremum (Episode.points settings labels
          (station.after (episodes.map (Episode.action settings labels)))
            (.report time histogram)) = _ := h.valuesTold_report haggregations hx
      rw [htold, show reportsIn [.report time histogram] = [(time, histogram)] from rfl,
        latest?_append_report]
      by_cases hne : reportsIn episodes = []
      · -- nothing is told of the first report, which stands for itself
        rw [hne] at hbefore ⊢
        have hnone : ((valuesTold labels extremum (pointsOver settings labels station
            episodes)).getLast?.or none).map exact = none := hbefore
        rw [Option.or_none, Option.map_eq_none_iff] at hnone
        show ((_ ++ []).getLast?.or (histogram.stats.value? extremum)).map exact = _
        rw [List.append_nil, hnone, Option.none_or, Option.map_map]
        rfl
      · obtain ⟨held, value, hheld, hvalue, hmoved⟩ := movedTo?_eq hx h hne
        have hfirst : first? extremum (reportsIn episodes ++ [(time, histogram)]) =
            first? extremum (reportsIn episodes) := by
          rw [first?, List.head?_append_of_ne_nil _ hne, first?]
        rw [hheld] at hbefore
        rw [hmoved, hvalue, hfirst]
        split
        · rename_i hsame
          rw [Option.toList_none, List.append_nil, hbefore]
          exact congrArg some hsame.symm
        · rw [Option.toList_some, List.getLast?_concat]
          rfl

end Steady

open Binary64 (exact)

/-- Over a run of reports the first one tells no extremum, and a later one tells an extremum exactly
if it differs from that of the report before it. So at every moment what was told last, or else the
extremum of the first report, is the extremum of the latest report as a number. -/
theorem told_extrema_track_reported_ones {settings : Settings}
    (haggregations : settings.aggregations = true) {labels : Labels} {station : Station Float}
    {episodes : List (Episode Float)} (h : Steady settings labels station episodes)
    {extremum : Statistic} (hx : extremum ∈ [Statistic.min, .max]) :
    (∀ before time histogram after, episodes = before ++ .report time histogram :: after →
      let points := pointsAt (labels.suffixed extremum.name)
        (reported settings labels station before time histogram)
      (reportsIn before = [] → points = []) ∧
      (reportsIn before ≠ [] → ∃ held value, latest? extremum (reportsIn before) = some held ∧
        histogram.stats.value? extremum = some value ∧
        points = if exact value = exact held.value then []
          else [.at time (labels.suffixed extremum.name) (.gauge value)])) ∧
    ∀ before after, episodes = before ++ after →
      ((valuesTold labels extremum (pointsOver settings labels station before)).getLast?.or
          (first? extremum (reportsIn before))).map exact =
        (latest? extremum (reportsIn before)).map (exact ·.value) := by
  refine ⟨?_, ?_⟩
  · rintro before time histogram after rfl points
    rw [List.append_cons] at h
    have hrun := h.of_append
    have htold : points = _ := hrun.told haggregations hx
    refine ⟨fun hnil => ?_, fun hne => ?_⟩
    · rw [htold, hnil]
      rfl
    · obtain ⟨held, value, hheld, hvalue, hmoved⟩ := Steady.movedTo?_eq hx hrun hne
      refine ⟨held, value, hheld, hvalue, ?_⟩
      rw [htold, hmoved]
      split <;> rfl
  · rintro before after rfl
    exact h.of_append.exact_last_told haggregations hx

/-- A report without buckets. -/
def extremes (count : Nat) (sum min max : Float) : Histogram Float :=
  ⟨⟨count, some sum, some min, some max⟩, [], []⟩

/-- Two reports, a sweep after a while, and a report after a restart. -/
def restarted : List (Episode Float) :=
  [.report 1 (extremes 2 9 2 7), .report 2 (extremes 3 18 2 9), .meanwhile (.advance 10),
    .meanwhile .sweep, .report 3 (extremes 1 5 5 5)]

theorem steady_restarted : Steady counting latency (.new 60 30) restarted where
  unknown statistic := by cases statistic <;> decide +kernel
  retained statistic := by cases statistic <;> decide +kernel
  alone statistic action ha := by
    simp only [restarted, List.mem_cons, List.not_mem_nil, or_false] at ha
    rcases ha with ha | ha | ha | ha | ha <;> cases ha <;> rfl
  newer := by
    show [1, 2, 3].Pairwise (· < ·)
    decide
  whole report hr := by
    have hr : report ∈ [(1, extremes 2 9 2 7), (2, extremes 3 18 2 9), (3, extremes 1 5 5 5)] := hr
    intro statistic hs
    simp only [List.mem_cons, List.not_mem_nil, or_false] at hr hs
    rcases hr with rfl | rfl | rfl <;> rcases hs with rfl | rfl | rfl <;>
      exact ⟨_, rfl, by decide +kernel⟩

/-- The maximum moves up, and the restart moves it back. -/
theorem told_maximum_of_restarted :
    let told := valuesTold latency .max (pointsOver counting latency (.new 60 30) restarted)
    told.map exact = [9, 5] ∧
      (told.getLast?.or (first? .max (reportsIn restarted))).map exact =
        (latest? .max (reportsIn restarted)).map (exact ·.value) := by
  intro told
  have hx : Statistic.max ∈ [Statistic.min, .max] := by decide
  have htracked := (told_extrema_track_reported_ones rfl steady_restarted hx).2
  exact ⟨by decide +kernel, htracked restarted [] (List.append_nil _).symm⟩

end Histogram

end MetricPoints
