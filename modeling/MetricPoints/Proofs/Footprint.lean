import Mathlib.Data.List.Lattice
import MetricPoints.Proofs.Channels
import MetricPoints.Proofs.Observed

/-
  The series that a plan submits samples of, its footprint. Which ones they are does not depend on
  what was seen before: whatever the tracker knows, the plan leaves every other series alone and
  accesses each of its own (`mem_footprint_iff`). What a plan yields depends on what is known of
  its footprint and on nothing else (`run_congr`), so that plans with disjoint footprints can be
  run in either order (`run_comm`).

  Main statement: `Converter.disjoint_resources_commute`.
-/

namespace MetricPoints

variable {V : Type}

namespace Tracker

/-- Two trackers that know the same of every series in a list. -/
def AgreeOn (footprint : List Series) (tracker other : Tracker V) : Prop :=
  ∀ series ∈ footprint, tracker.entries.get? series = other.entries.get? series

namespace AgreeOn

variable {footprint : List Series} {tracker other : Tracker V}

theorem submit (h : AgreeOn footprint tracker other) (now : Nat) (sample : Sample V) :
    AgreeOn footprint (tracker.submit now sample) (other.submit now sample) := by
  intro series hs
  rw [get?_submit, get?_submit, h series hs]

theorem changeFor (h : AgreeOn footprint tracker other) {sample : Sample V}
    (hs : sample.series ∈ footprint) : tracker.changeFor sample = other.changeFor sample := by
  rw [Tracker.changeFor, h _ hs, Tracker.changeFor]

theorem respects (now : Nat) {sample : Sample V} (hs : sample.series ∈ footprint) :
    sample.Respects (AgreeOn footprint) now now where
  changeFor h := h.changeFor hs
  submit h := h.submit now sample

end AgreeOn

end Tracker

namespace Plan

/-- The series that a plan submits samples of. -/
def footprint (plan : Plan V) : List Series := plan.samples.map Sample.series

variable [Amount V] {plan other : Plan V}

/-- A series outside the footprint is left alone. -/
theorem get?_run_of_not_mem {series : Series} (h : series ∉ plan.footprint) (now : Nat)
    (tracker : Tracker V) :
    (run now plan tracker).2.entries.get? series = tracker.entries.get? series := by
  rw [tracker_run]
  apply Tracker.get?_observeAll_of_not_sampled
  exact fun sample hs he => h (he ▸ List.mem_map_of_mem hs)

/-- A series of the footprint is accessed. -/
theorem access_run_of_mem {series : Series} (h : series ∈ plan.footprint) (now : Nat)
    (tracker : Tracker V) :
    ((run now plan tracker).2.entries.get? series).map Entry.access = some now := by
  obtain ⟨sample, hs, rfl⟩ := List.mem_map.mp h
  rw [tracker_run, Tracker.get?_observeAll]
  apply Tracker.access_entryOver
  have hm : sample.observation ∈ observationsOf sample.series plan.samples :=
    List.mem_map_of_mem (List.mem_filter.mpr ⟨hs, decide_eq_true rfl⟩)
  exact List.ne_nil_of_mem hm

/-- The footprint can be told from what a run does to any tracker: to the series in it, and to no
other, something happens at some reading of the clock. -/
theorem mem_footprint_iff (tracker : Tracker V) {series : Series} :
    series ∈ plan.footprint ↔
      ∃ now, (run now plan tracker).2.entries.get? series ≠ tracker.entries.get? series := by
  constructor
  · intro h
    cases hk : tracker.entries.get? series with
    | none =>
      refine ⟨0, fun he => ?_⟩
      have ha := access_run_of_mem h 0 tracker
      rw [he] at ha
      exact absurd ha nofun
    | some entry =>
      -- a reading that the entry was not accessed at
      refine ⟨entry.access + 1, fun he => ?_⟩
      have ha := access_run_of_mem h (entry.access + 1) tracker
      rw [he] at ha
      have : entry.access = entry.access + 1 := Option.some.inj ha
      omega
  · rintro ⟨now, hne⟩
    by_contra h
    exact hne (get?_run_of_not_mem h now tracker)

/-- What a plan yields depends on nothing but what is known of its footprint. -/
theorem run_congr {footprint : List Series} {tracker tracker' : Tracker V}
    (h : Tracker.AgreeOn footprint tracker tracker') (hp : plan.footprint ⊆ footprint) (now : Nat) :
    (run now plan tracker).1 = (run now plan tracker').1 ∧
      Tracker.AgreeOn footprint (run now plan tracker).2 (run now plan tracker').2 :=
  run_of_respects (fun _ hs => Tracker.AgreeOn.respects now (hp (List.mem_map_of_mem hs))) h

/-- A plan with a disjoint footprint, run before, is not noticed. -/
theorem run_after_disjoint (h : plan.footprint.Disjoint other.footprint) (now : Nat)
    (tracker : Tracker V) :
    (run now plan (run now other tracker).2).1 = (run now plan tracker).1 ∧
      Tracker.AgreeOn plan.footprint (run now plan (run now other tracker).2).2
        (run now plan tracker).2 := by
  apply run_congr _ (List.Subset.refl _)
  exact fun series hs => get?_run_of_not_mem (fun ho => h hs ho) now tracker

/-- Plans with disjoint footprints leave the same entries in either order. -/
theorem run_comm (h : plan.footprint.Disjoint other.footprint) (now : Nat) (tracker : Tracker V)
    (series : Series) :
    (run now other (run now plan tracker).2).2.entries.get? series =
      (run now plan (run now other tracker).2).2.entries.get? series := by
  by_cases hp : series ∈ plan.footprint
  · rw [get?_run_of_not_mem (h hp), (run_after_disjoint h now tracker).2 series hp]
  · rw [get?_run_of_not_mem hp]
    by_cases ho : series ∈ other.footprint
    · rw [(run_after_disjoint h.symm now tracker).2 series ho]
    · rw [get?_run_of_not_mem ho, get?_run_of_not_mem ho, get?_run_of_not_mem hp]

end Plan

/-- The series that converting a resource submits samples of. -/
def ResourceMetrics.footprint [Amount V] (settings : Settings) (resource : ResourceMetrics V) :
    List Series :=
  (resource.plan settings).footprint

namespace Converter

variable [Amount V]

/-- A resource gives the same after another one with which it shares no series. -/
theorem fst_convert_after_disjoint (converter : Converter V) {a b : ResourceMetrics V}
    (h : (a.footprint converter.settings).Disjoint (b.footprint converter.settings)) (now : Nat) :
    ((converter.convert now [a]).2.convert now [b]).1 = (converter.convert now [b]).1 := by
  rw [fst_convert_singleton, tracker_convert_singleton, settings_convert, fst_convert_singleton,
    shown_congr (converter.observer_convert now [a]),
    (Plan.run_after_disjoint h.symm now converter.tracker).1]

/-- Which series a resource is sampled of does not depend on what was seen before. Two resources
that are sampled of disjoint series do not interfere: in either order each gives the same points,
report, problems and events, and the tracker ends with the same entries. The fallback answers the
same to both, whichever asks first. -/
theorem disjoint_resources_commute (converter : Converter V) :
    (∀ (resource : ResourceMetrics V) (tracker : Tracker V) (series : Series),
      series ∈ resource.footprint converter.settings ↔
        ∃ now, ({ converter with tracker }.convert now [resource]).2.tracker.entries.get? series ≠
          tracker.entries.get? series) ∧
    ∀ a b : ResourceMetrics V,
      (a.footprint converter.settings).Disjoint (b.footprint converter.settings) →
      ∀ now, ∃ fromA fromB : Converted V,
        (converter.convertAll now [[a], [b]]).1 = [fromA, fromB] ∧
        (converter.convertAll now [[b], [a]]).1 = [fromB, fromA] ∧
        (converter.convertAll now [[a], [b]]).2.tracker.entries.toList.Perm
          (converter.convertAll now [[b], [a]]).2.tracker.entries.toList := by
  refine ⟨fun resource tracker series => ?_, fun a b h now => ?_⟩
  · simp only [tracker_convert_singleton]
    exact Plan.mem_footprint_iff tracker
  · have hb := converter.fst_convert_after_disjoint h now
    have ha := converter.fst_convert_after_disjoint h.symm now
    refine ⟨(converter.convert now [a]).1, (converter.convert now [b]).1, ?_, ?_, ?_⟩
    · exact congrArg (fun second => [(converter.convert now [a]).1, second]) hb
    · exact congrArg (fun second => [(converter.convert now [b]).1, second]) ha
    · apply Table.perm_of_get?_eq
      intro series
      show ((converter.convert now [a]).2.convert now [b]).2.tracker.entries.get? series =
        ((converter.convert now [b]).2.convert now [a]).2.tracker.entries.get? series
      rw [tracker_convert_singleton, tracker_convert_singleton, tracker_convert_singleton,
        tracker_convert_singleton, settings_convert, settings_convert]
      exact Plan.run_comm h now converter.tracker series

/-- Two running totals of one name, reported by a host. -/
def requestsOf (host : String) : ResourceMetrics Rat :=
  ⟨[⟨"host.name", .text host⟩], [⟨none,
    [⟨"requests", .sum 2 true [⟨1, [], 0, some (.integer 5)⟩, ⟨2, [], 0, some (.integer 8)⟩]⟩]⟩]⟩

theorem hosts_commute :
    let converter : Converter Rat := ⟨.default, .empty 0, .collector, false, .zero⟩
    ((requestsOf "web-1").footprint .default).Disjoint ((requestsOf "web-2").footprint .default) ∧
      ∃ one two : Converted Rat,
        (converter.convertAll 0 [[requestsOf "web-1"], [requestsOf "web-2"]]).1 = [one, two] ∧
        (converter.convertAll 0 [[requestsOf "web-2"], [requestsOf "web-1"]]).1 = [two, one] := by
  intro converter
  have hn : ∀ series ∈ (requestsOf "web-1").footprint converter.settings,
      series ∉ (requestsOf "web-2").footprint converter.settings := by
    decide +kernel
  have hd : ((requestsOf "web-1").footprint converter.settings).Disjoint
      ((requestsOf "web-2").footprint converter.settings) := fun series h h' => hn series h h'
  obtain ⟨one, two, h₁, h₂, -⟩ := (disjoint_resources_commute converter).2 _ _ hd 0
  exact ⟨hd, one, two, h₁, h₂⟩

end Converter

end MetricPoints
