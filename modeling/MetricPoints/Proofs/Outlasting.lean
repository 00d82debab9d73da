import MetricPoints.Proofs.Orthogonal
import MetricPoints.Proofs.Replay
import MetricPoints.Proofs.Residence

/-
  The count of a group of statistics outlasts the others. A sum or an extremum is never observed
  without the count of the same labels (`Arrival.observesCounts`), so that the count was accessed no
  earlier and is stored with a time that is no earlier (`Tracker.Accompanied`). A sweep that keeps
  one of the others therefore keeps the count too. This needs a clock that is never set back: a data
  point without a sum would else leave the count with the older access of the two.

  Main statement: `Station.counts_outlast_statistics`.
-/

namespace MetricPoints

variable {V : Type}

/-- Labels that share the series of one word share those of all words. -/
theorem Labels.series_suffixed_eq {labels other : Labels} {word : String}
    (h : (labels.suffixed word).series = (other.suffixed word).series) (next : String) :
    (labels.suffixed next).series = (other.suffixed next).series := by
  obtain ⟨hname, hhost, horigin, htags⟩ := series_eq_iff.mp h
  have hbase : labels.name = other.name := by
    have hdotted : labels.name ++ ("." ++ word) = other.name ++ ("." ++ word) := by
      rw [← String.append_assoc, ← String.append_assoc]
      exact hname
    exact (String.append_left_inj _).mp hdotted
  refine series_eq_iff.mpr ⟨?_, hhost, horigin, htags⟩
  rw [suffixed, hbase, suffixed]

/-! ## What is known of a group -/

/-- Samples among which every statistic comes with the count of the same labels. -/
def ObservesCounts (samples : List (Sample V)) : Prop :=
  ∀ sample ∈ samples, ∀ (labels : Labels) (statistic : Statistic),
    sample.series = (labels.suffixed statistic.name).series →
    ∃ other ∈ samples, other.series = (labels.suffixed "count").series

namespace Tracker

/-- Whatever is stored after samples was stored before, or it is one of them. -/
theorem stored?_observeAll_cases (tracker : Tracker V) (now : Nat) (samples : List (Sample V))
    {series : Series} {held : Observation V}
    (h : (tracker.observeAll now samples).2.stored? series = some held) :
    tracker.stored? series = some held ∨
      ∃ sample ∈ samples, sample.series = series ∧ sample.observation = held := by
  have hbefore : tracker.AllStored fun series held =>
      tracker.stored? series = some held ∨
        ∃ sample ∈ samples, sample.series = series ∧ sample.observation = held :=
    fun _ _ => .inl
  exact hbefore.observeAll now (fun sample hs => .inr ⟨sample, hs, rfl, rfl⟩) series held h

/-- What is known of a series after samples was accessed now, if the series was sampled, and was
known before, if it was not. -/
theorem get?_observeAll_cases (tracker : Tracker V) (now : Nat) (samples : List (Sample V))
    {series : Series} {entry : Entry V}
    (h : (tracker.observeAll now samples).2.entries.get? series = some entry) :
    (∃ sample ∈ samples, sample.series = series) ∧ entry.access = now ∨
      (¬∃ sample ∈ samples, sample.series = series) ∧
        tracker.entries.get? series = some entry := by
  by_cases hs : ∃ sample ∈ samples, sample.series = series
  · obtain ⟨sample, hm, rfl⟩ := hs
    have hobserved : observationsOf sample.series samples ≠ [] := by
      have hfilter : sample ∈ samples.filter (·.series = sample.series) :=
        List.mem_filter.mpr ⟨hm, decide_eq_true rfl⟩
      exact List.ne_nil_of_mem (List.mem_map_of_mem hfilter)
    have haccess := access_entryOver now (tracker.entries.get? sample.series) hobserved
    rw [← get?_observeAll, h] at haccess
    exact .inl ⟨⟨sample, hm, rfl⟩, Option.some.inj haccess⟩
  · rw [get?_observeAll_of_not_sampled tracker now fun sample hm e => hs ⟨sample, hm, e⟩] at h
    exact .inr ⟨hs, h⟩

/-- Nothing was accessed after `now`; and where a statistic of some labels is known, so is their
count, which was accessed no earlier and is of a time that is no earlier. -/
structure Accompanied (now : Nat) (tracker : Tracker V) : Prop where
  access_le {series : Series} {entry : Entry V} (h : tracker.entries.get? series = some entry) :
    entry.access ≤ now
  count {labels : Labels} {statistic : Statistic} {entry : Entry V}
    (h : tracker.entries.get? (labels.suffixed statistic.name).series = some entry) :
    ∃ count, tracker.entries.get? (labels.suffixed "count").series = some count ∧
      entry.access ≤ count.access ∧ entry.time ≤ count.time

namespace Accompanied

variable {now : Nat} {tracker : Tracker V}

theorem empty (now ttl : Nat) : Accompanied now (.empty ttl : Tracker V) where
  access_le h := nomatch h
  count h := nomatch h

theorem mono (h : Accompanied now tracker) {later : Nat} (hle : now ≤ later) :
    Accompanied later tracker where
  access_le he := Nat.le_trans (h.access_le he) hle
  count := h.count

/-- What keeps a statistic keeps its count. -/
theorem sweep (h : Accompanied now tracker) : Accompanied now (tracker.sweep now) := by
  have hkept {series : Series} {entry : Entry V} :
      (tracker.sweep now).entries.get? series = some entry ↔
        tracker.entries.get? series = some entry ∧ now - entry.access ≤ tracker.ttl := by
    rw [get?_sweep, Option.filter_eq_some_iff, fresh, decide_eq_true_iff]
  refine ⟨fun he => h.access_le (hkept.mp he).1, fun he => ?_⟩
  obtain ⟨hentry, hfresh⟩ := hkept.mp he
  obtain ⟨count, hcount, haccess, htime⟩ := h.count hentry
  exact ⟨count, hkept.mpr ⟨hcount, by omega⟩, haccess, htime⟩

section Samples

variable {samples : List (Sample V)} {time : Nat} (ht : ∀ sample ∈ samples, sample.time = time)
  (hcounts : ObservesCounts samples)

include ht hcounts

/-- After samples of one time, the time of a count is no earlier than that of any statistic. -/
theorem reached_observeAll (h : Accompanied now tracker) {labels : Labels} {statistic : Statistic}
    {held : Observation V}
    (hs : (tracker.observeAll now samples).2.stored? (labels.suffixed statistic.name).series =
      some held) :
    (tracker.observeAll now samples).2.Reached (labels.suffixed "count").series held.time := by
  rcases tracker.stored?_observeAll_cases now samples hs with hbefore | ⟨sample, hm, hseries, rfl⟩
  · obtain ⟨entry, hentry, rfl⟩ := Option.map_eq_some_iff.mp hbefore
    obtain ⟨count, hcount, -, htime⟩ := h.count hentry
    exact Reached.observeAll ⟨count.stored, congrArg (Option.map Entry.stored) hcount, htime⟩ now _
  · obtain ⟨other, ho, hother⟩ := hcounts sample hm labels statistic hseries
    have hsame : sample.time = other.time := (ht sample hm).trans (ht other ho).symm
    obtain ⟨stored, hstored, hle⟩ := past_of_mem_observeAll tracker now ho
    exact ⟨stored, hother ▸ hstored, Nat.le_trans (Nat.le_of_eq hsame) hle⟩

/-- Samples of one time keep the counts ahead. -/
theorem observeAll (h : Accompanied now tracker) :
    Accompanied now (tracker.observeAll now samples).2 := by
  have haccess_le {series : Series} {entry : Entry V}
      (he : (tracker.observeAll now samples).2.entries.get? series = some entry) :
      entry.access ≤ now := by
    rcases tracker.get?_observeAll_cases now samples he with ⟨-, hnow⟩ | ⟨-, hbefore⟩
    · exact Nat.le_of_eq hnow
    · exact h.access_le hbefore
  refine ⟨haccess_le, fun {labels statistic entry} he => ?_⟩
  obtain ⟨held, hheld, htime⟩ :=
    h.reached_observeAll ht hcounts (congrArg (Option.map Entry.stored) he)
  obtain ⟨count, hcount, rfl⟩ := Option.map_eq_some_iff.mp hheld
  refine ⟨count, hcount, ?_, htime⟩
  rcases tracker.get?_observeAll_cases now samples hcount with ⟨-, hnow⟩ | ⟨hnot, hbefore⟩
  · rw [hnow]
    exact haccess_le he
  · -- where the count was not sampled, the statistic was not either
    rcases tracker.get?_observeAll_cases now samples he with ⟨⟨sample, hm, hs⟩, -⟩ | ⟨-, hold⟩
    · exact absurd (hcounts sample hm labels statistic hs) hnot
    · obtain ⟨count', hcount', hle, -⟩ := h.count hold
      cases hbefore.symm.trans hcount'
      exact hle

end Samples

end Accompanied

end Tracker

/-! ## What data points observe -/

namespace Arrival

variable [Amount V]

/-- A data point observes no statistic without the count of the same labels. -/
theorem observesCounts (settings : Settings) (arrival : Arrival V) :
    ObservesCounts (arrival.plan settings).samples := by
  intro sample hm labels statistic hseries
  have hends : sample.series.EndsIn statistic.name := ⟨labels.name, congrArg Series.name hseries⟩
  obtain ⟨own, -, hown, other, ho, hcount⟩ | ⟨-, hbucket⟩ := statistic_or_bucket hm
  · have hends' : sample.series.EndsIn own.name :=
      ⟨arrival.labels.name, congrArg Labels.name hown⟩
    have hname := hends'.eq hends own.dot_not_mem_name statistic.dot_not_mem_name
    rw [Sample.series, hown, hname] at hseries
    exact ⟨other, ho, (congrArg Labels.series hcount).trans (Labels.series_suffixed_eq hseries _)⟩
  · have hname := hends.eq hbucket statistic.dot_not_mem_name (by decide)
    exact absurd hname statistic.name_ne_bucket

end Arrival

/-! ## Runs -/

namespace Station

variable [Amount V]

/-- Says that the clock is never set back over a run. -/
def Forward (settings : Settings) (station : Station V) : List (Happening V) → Prop
  | [] => True
  | happening :: rest =>
    let next := (station.act (happening.action settings)).2
    station.now ≤ next.now ∧ next.Forward settings rest

instance decidableForward (settings : Settings) :
    (station : Station V) → (happenings : List (Happening V)) →
      Decidable (station.Forward settings happenings)
  | _, [] => inferInstanceAs (Decidable True)
  | station, happening :: rest =>
    have := decidableForward settings (station.act (happening.action settings)).2 rest
    inferInstanceAs (Decidable (_ ∧ _))

theorem accompanied_after {settings : Settings} {station : Station V}
    {happenings : List (Happening V)} (h : station.tracker.Accompanied station.now)
    (hforward : station.Forward settings happenings) :
    let last := station.after (happenings.map (Happening.action settings))
    last.tracker.Accompanied last.now := by
  induction happenings generalizing station with
  | nil => exact h
  | cons happening rest ih =>
    obtain ⟨hnow, hrest⟩ := hforward
    rw [List.map_cons, after_cons]
    refine ih ?_ hrest
    cases happening with
    | arrive arrival =>
      show (Plan.run station.now (arrival.plan settings) station.tracker).2.Accompanied station.now
      rw [Plan.tracker_run]
      exact h.observeAll (fun sample hm => Arrival.time_of_mem_samples hm)
        (arrival.observesCounts settings)
    | advance n => exact h.mono hnow
    | sweep => exact h.sweep

/-- On an empty tracker and a clock that is never set back, whatever data points arrive and whenever
the tracker is swept: wherever the sum or an extremum of some labels is known, so is their count,
which was accessed no earlier and is of a time that is no earlier. -/
theorem counts_outlast_statistics (settings : Settings) (ttl interval : Nat)
    {happenings : List (Happening V)}
    (hforward : (new ttl interval : Station V).Forward settings happenings) (labels : Labels)
    (statistic : Statistic) {entry : Entry V}
    (h : ((new ttl interval).after (happenings.map (Happening.action settings))).known?
      (labels.suffixed statistic.name).series = some entry) :
    ∃ count, ((new ttl interval).after (happenings.map (Happening.action settings))).known?
        (labels.suffixed Statistic.count.name).series = some count ∧
      entry.access ≤ count.access ∧ entry.time ≤ count.time := by
  let start : Station V := new ttl interval
  have hstart : start.tracker.Accompanied start.now := .empty _ ttl
  exact (accompanied_after hstart hforward).count h

/-- A histogram with a sum and a maximum, a summary of the same name, and a histogram without a sum.
At the sweep only the maximum has been idle for too long. -/
def latencies : List (Happening Rat) :=
  let labels : Labels := ⟨"latency", ∅, none, none⟩
  [.arrive ⟨labels, 1, .histogram .cumulative ⟨⟨3, some 6, none, some 4⟩, [], []⟩⟩, .advance 6,
    .arrive ⟨labels, 2, .summary ⟨5, 9, []⟩⟩, .advance 6, .sweep,
    .arrive ⟨labels, 3, .histogram .cumulative ⟨⟨7, none, none, none⟩, [], []⟩⟩]

theorem count_outlasts_sum_of_latencies :
    let settings := { Settings.default with bucketMode := .omitted, aggregations := true }
    let labels : Labels := ⟨"latency", ∅, none, none⟩
    let last := (new 10 0 : Station Rat).after (latencies.map (Happening.action settings))
    (new 10 0 : Station Rat).Forward settings latencies ∧
      last.known? (labels.suffixed Statistic.max.name).series = none ∧
      last.known? (labels.suffixed Statistic.sum.name).series = some ⟨9, 2, 6⟩ ∧
      ∃ count, last.known? (labels.suffixed Statistic.count.name).series = some count ∧
        6 ≤ count.access ∧ 2 ≤ count.time := by
  intro settings labels last
  have hforward : (new 10 0 : Station Rat).Forward settings latencies := by decide +kernel
  have hsum : last.known? (labels.suffixed Statistic.sum.name).series = some ⟨9, 2, 6⟩ := by
    decide +kernel
  exact ⟨hforward, by decide +kernel, hsum,
    counts_outlast_statistics settings 10 0 hforward labels .sum hsum⟩

end Station

end MetricPoints
