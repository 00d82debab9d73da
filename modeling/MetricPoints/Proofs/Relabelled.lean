import Mathlib.Data.List.Forall2
import MetricPoints.Proofs.Channels

/-
  Plans that differ at most in the order of tags. Their samples are of the same series, so that
  they run alike: the same tracker ends in the same state, and the points are the same up to the
  order of their tags (`Plan.Same.run`).
-/

namespace MetricPoints

variable {V : Type}

/-- The same labels, up to the order of the tags. -/
structure Labels.Same (labels other : Labels) : Prop where
  name : labels.name = other.name
  host : labels.host = other.host
  origin : labels.origin = other.origin
  tags : ∀ tag, tag ∈ labels.tags ↔ tag ∈ other.tags

/-- The same point, up to the order of the tags. -/
structure Point.Same (point other : Point V) : Prop where
  labels : point.labels.Same other.labels
  reading : point.reading = other.reading
  second : point.second = other.second

/-- The same sample, up to the order of the tags. -/
structure Sample.Same (sample other : Sample V) : Prop where
  labels : sample.labels.Same other.labels
  time : sample.time = other.time
  value : sample.value = other.value

/-- The same step, up to the order of the tags. -/
inductive Step.Same : Step V → Step V → Prop where
  | emit {point other : Point V} (h : point.Same other) : Same (.emit point) (.emit other)
  | note (notice : Notice V) : Same (.note notice) (.note notice)
  | track (role : Role) {sample other : Sample V} (h : sample.Same other) :
    Same (.track role sample) (.track role other)
  | aggregate {a : Aggregates V} {labels : Labels} (h : a.labels.Same labels) :
    Same (.aggregate a) (.aggregate { a with labels })

/-- The same plan, up to the order of the tags. -/
abbrev Plan.Same (plan other : Plan V) : Prop := List.Forall₂ Step.Same plan other

/-- The same outcome, up to the order of the tags. -/
structure Outcome.Same (outcome other : Outcome V) : Prop where
  points : List.Forall₂ Point.Same outcome.points other.points
  late : outcome.late = other.late
  notices : outcome.notices = other.notices

/-- The same points, up to the order of their tags, with the same report, problems and events. -/
structure Converted.Same (converted other : Converted V) : Prop where
  points : List.Forall₂ Point.Same converted.points other.points
  report : converted.report = other.report
  problems : converted.problems = other.problems
  events : converted.events = other.events

theorem forall₂_map {α β : Type} {R : β → β → Prop} {f g : α → β} (h : ∀ x, R (f x) (g x))
    (xs : List α) : List.Forall₂ R (xs.map f) (xs.map g) := by
  rw [List.forall₂_map_left_iff, List.forall₂_map_right_iff]
  exact List.forall₂_same.mpr fun x _ => h x

theorem forall₂_ite {β : Type} {R : β → β → Prop} {p : Prop} [Decidable p] {xs ys : List β}
    (h : List.Forall₂ R xs ys) :
    List.Forall₂ R (if p then xs else []) (if p then ys else []) := by
  split
  · exact h
  · exact .nil

namespace Labels.Same

variable {labels other : Labels}

theorem refl (labels : Labels) : labels.Same labels := ⟨rfl, rfl, rfl, fun _ => Iff.rfl⟩

theorem suffixed (h : labels.Same other) (suffix : String) :
    (labels.suffixed suffix).Same (other.suffixed suffix) where
  name := by rw [Labels.suffixed, Labels.suffixed, h.name]
  host := h.host
  origin := h.origin
  tags := h.tags

theorem tagged (h : labels.Same other) (tags : List Tag) :
    (labels.tagged tags).Same (other.tagged tags) where
  name := h.name
  host := h.host
  origin := h.origin
  tags tag := by rw [mem_tags_tagged, mem_tags_tagged, h.tags]

theorem series (h : labels.Same other) : labels.series = other.series :=
  series_eq_iff.mpr ⟨h.name, h.host, h.origin, h.tags⟩

end Labels.Same

namespace Sample.Same

variable {samples others : List (Sample V)}

/-- To the tracker, the same sample is the same. -/
theorem observeAll (h : List.Forall₂ Sample.Same samples others) (tracker : Tracker V)
    (now : Nat) : tracker.observeAll now samples = tracker.observeAll now others := by
  induction h generalizing tracker with
  | nil => rfl
  | cons hs _ ih =>
    simp only [Tracker.observeAll, Sample.series, hs.labels.series, hs.time, hs.value, ih]

end Sample.Same

namespace Outcome.Same

theorem append {a b c d : Outcome V} (h : a.Same b) (h' : c.Same d) : (a ++ c).Same (b ++ d) where
  points := List.rel_append h.points h'.points
  late := by rw [late_append, late_append, h.late, h'.late]
  notices := by rw [notices_append, notices_append, h.notices, h'.notices]

end Outcome.Same

namespace Step.Same

theorem refl (step : Step V) : step.Same step := by
  cases step with
  | emit point => exact .emit ⟨.refl _, rfl, rfl⟩
  | note notice => exact .note notice
  | track role sample => exact .track role ⟨.refl _, rfl, rfl⟩
  | aggregate a => exact .aggregate (.refl a.labels)

variable {step other : Step V}

theorem samples (h : step.Same other) : List.Forall₂ Sample.Same step.samples other.samples := by
  cases h with
  | emit | note => exact .nil
  | track role h => exact .cons h .nil
  | @aggregate a labels h =>
    have hs (e : Statistic × V) :
        Sample.Same ⟨a.labelsOf e.1, a.time, e.2⟩ ⟨labels.suffixed e.1.name, a.time, e.2⟩ :=
      ⟨h.suffixed _, rfl, rfl⟩
    exact forall₂_map hs a.values

variable [Amount V]

theorem outcome (h : step.Same other) (changes : List (Change V)) :
    (step.outcome changes).Same (other.outcome changes) := by
  cases h with
  | emit h => exact ⟨.cons h .nil, rfl, rfl⟩
  | note notice => exact ⟨.nil, rfl, rfl⟩
  | @track role sample other h =>
    cases changes with
    | nil => exact ⟨.nil, rfl, rfl⟩
    | cons change rest =>
      have hpoint (reading : Reading V) :
          (Point.at sample.time sample.labels reading).Same
            (.at other.time other.labels reading) :=
        ⟨h.labels, rfl, congrArg (· / Amount.second) h.time⟩
      refine ⟨forall₂_map hpoint _, rfl, ?_⟩
      show (if _ then [_] else []) = if _ then [_] else []
      rw [h.labels.name, h.time]
  | @aggregate a labels h =>
    have hpoints (statistic : Statistic) (values : List V) :
        List.Forall₂ Point.Same (values.map (a.point statistic))
          (values.map ({ a with labels }.point statistic)) :=
      forall₂_map (fun value => ⟨h.suffixed _, rfl, rfl⟩) values
    refine ⟨forall₂_ite (List.rel_append (List.rel_append (List.rel_append ?_ ?_) ?_) ?_), rfl, rfl⟩
    · exact hpoints .count _
    · exact hpoints .sum _
    · exact hpoints .min _
    · exact hpoints .max _

theorem run (h : step.Same other) (now : Nat) (tracker : Tracker V) :
    (step.run now tracker).1.Same (other.run now tracker).1 ∧
      (step.run now tracker).2 = (other.run now tracker).2 := by
  have ho := Sample.Same.observeAll h.samples tracker now
  rw [Step.run, Step.run, ho]
  exact ⟨h.outcome _, rfl⟩

end Step.Same

namespace Plan.Same

theorem refl (plan : Plan V) : plan.Same plan :=
  List.forall₂_same.mpr fun step _ => .refl step

variable [Amount V] {plan other : Plan V}

/-- The same plan has the same outcome, and leaves the tracker in the same state. -/
theorem run (h : plan.Same other) (now : Nat) (tracker : Tracker V) :
    (Plan.run now plan tracker).1.Same (Plan.run now other tracker).1 ∧
      (Plan.run now plan tracker).2 = (Plan.run now other tracker).2 := by
  induction h generalizing tracker with
  | nil => exact ⟨⟨.nil, rfl, rfl⟩, rfl⟩
  | cons hs _ ih =>
    obtain ⟨ho, ht⟩ := hs.run now tracker
    rw [run_cons, run_cons, ht]
    exact ⟨ho.append (ih _).1, (ih _).2⟩

end Plan.Same

namespace Converter

variable [Amount V]

/-- Batches with the same plan are converted alike, and leave the same converter. -/
theorem convert_of_same (converter : Converter V) {batch other : Batch V}
    (h : (Batch.plan converter.settings batch).Same (Batch.plan converter.settings other))
    (now : Nat) :
    (converter.convert now batch).1.Same (converter.convert now other).1 ∧
      (converter.convert now batch).2 = (converter.convert now other).2 := by
  obtain ⟨ho, ht⟩ := h.run now converter.tracker
  have hr : Report.of (Plan.run now (Batch.plan converter.settings batch) converter.tracker).1 =
      Report.of (Plan.run now (Batch.plan converter.settings other) converter.tracker).1 := by
    rw [Report.of, Report.of, ho.points.length_eq, ho.late, ho.notices]
  rw [convert_eq, convert_eq]
  refine ⟨⟨ho.points, hr, ?_, ?_⟩, ?_⟩
  · exact congrArg converter.observer.problems ho.notices
  · exact congrArg converter.observer.events ho.notices
  · simp only [ht, hr]

end Converter

end MetricPoints
