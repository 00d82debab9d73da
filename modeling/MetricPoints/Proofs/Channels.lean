import MetricPoints.Converter

/-
  What a converter tells report, observer, counters and consumer, in one piece. Whatever it does on
  its way through a resource is to take up the outcome of a plan (`Work.take`), and what it takes up
  in a row may be taken up at once (`Work.take_take`). So the loops over scopes and metrics are the
  run of one plan (`Work.foldl_run`), and only the counters of points and of late samples wait for
  the end of the resource.

  Main statement: `Converter.convert_eq`. A batch is converted by running its plan; what the outcome
  shows is what the batch gives, and its report is what is counted.
-/

namespace MetricPoints

variable {V : Type}

namespace Converted

theorem none_append (converted : Converted V) : none.append converted = converted := by
  show Converted.mk _ (0 + converted.report) _ _ = _
  rw [Report.zero_add]
  rfl

theorem append_none (converted : Converted V) : converted.append none = converted := by
  show Converted.mk _ (converted.report + 0) _ _ = _
  rw [Report.add_zero, none, List.append_nil, List.append_nil, List.append_nil]

theorem append_assoc (a b c : Converted V) : (a.append b).append c = a.append (b.append c) := by
  simp only [append, List.append_assoc, Report.add_assoc]

end Converted

namespace Converter

/-- Lets all counters go on by a report, unless nothing is counted. -/
def countAll (converter : Converter V) (report : Report) : Converter V :=
  { converter with
    counts := if converter.counting then converter.counts.add report else converter.counts }

/-- What an outcome shows once it has passed the observer. -/
def shown (converter : Converter V) (outcome : Outcome V) : Converted V :=
  ⟨outcome.points, .of outcome, converter.observer.problems outcome.notices,
    converter.observer.events outcome.notices⟩

end Converter

/-! ## What an outcome does to the work at hand -/

namespace Counts

/-- Lets the counters of the problems among notices go on. -/
def addProblems (counts : Counts) (notices : List (Notice V)) : Counts :=
  ⟨fun counter => counts.reads counter +
    match counter with
    | .problems kind => Report.countKind kind notices
    | _ => 0⟩

/-- Remarks are not counted. -/
theorem addProblems_of_remarks (counts : Counts) {notices : List (Notice V)}
    (h : notices.filterMap Notice.problem? = []) : counts.addProblems notices = counts := by
  apply ext
  intro counter
  cases counter with
  | points => rfl
  | late => rfl
  | problems kind =>
    show _ + (notices.filterMap Notice.problem?).countP _ = _
    rw [h]
    rfl

theorem addProblems_append (counts : Counts) (first second : List (Notice V)) :
    counts.addProblems (first ++ second) = (counts.addProblems first).addProblems second := by
  apply ext
  intro counter
  cases counter with
  | points => rfl
  | late => rfl
  | problems kind =>
    simp only [addProblems, Report.countKind_append, Nat.add_assoc]

theorem addProblems_problem (counts : Counts) (problem : Problem) :
    counts.addProblems [(.problem problem : Notice V)] =
      counts.advance (.problems problem.kind) 1 := by
  apply ext
  intro counter
  cases counter with
  | points => rfl
  | late => rfl
  | problems kind =>
    simp only [addProblems, advance, Report.countKind_problem, Counter.problems.injEq]

/-- Once points and late samples are counted too, the whole report is. -/
theorem advance_addProblems (counts : Counts) (outcome : Outcome V) :
    ((counts.addProblems outcome.notices).advance .points (Report.of outcome).points).advance .late
      (Report.of outcome).late = counts.add (.of outcome) := by
  apply ext
  intro counter
  cases counter with
  | points => rfl
  | late => rfl
  | problems kind =>
    show _ + 0 + 0 = counts.reads (.problems kind) + (Report.of outcome).problems kind
    rw [Report.problems_of]
    rfl

end Counts

namespace Converter

theorem countAll_countAll (converter : Converter V) (a b : Report) :
    (converter.countAll a).countAll b = converter.countAll (a + b) := by
  unfold countAll
  cases converter.counting with
  | false => rfl
  | true => exact congrArg (Converter.mk _ _ _ _) (Counts.add_add _ a b)

theorem shown_congr {converter other : Converter V} (h : converter.observer = other.observer)
    (outcome : Outcome V) : converter.shown outcome = other.shown outcome := by
  unfold shown
  rw [h]

theorem shown_empty (converter : Converter V) : converter.shown .empty = .none := by
  unfold shown
  cases converter.observer <;> rfl

theorem shown_append (converter : Converter V) (a b : Outcome V) :
    converter.shown (a ++ b) = (converter.shown a).append (converter.shown b) := by
  unfold shown Converted.append
  congr 1
  · exact Report.of_append a b
  · cases converter.observer with
    | collector => exact List.filterMap_append
    | logger => rfl
  · exact List.filterMap_append

theorem append_remark (converter : Converter V) (converted : Converted V) (remark : Remark V) :
    converted.append (converter.shown ⟨[], 0, [.remark remark]⟩) =
      { converted with events := converted.events ++ [remark.event] } := by
  unfold shown Converted.append
  congr 1
  · exact List.append_nil _
  · cases converter.observer <;> exact List.append_nil _

theorem append_problem (converter : Converter V) (converted : Converted V) (problem : Problem) :
    converted.append (converter.shown ⟨[], 0, [.problem problem]⟩) =
      converter.observer.hear
        { converted with report := converted.report.record problem.kind } problem := by
  rw [Report.record_kind]
  unfold shown Converted.append
  cases converter.observer with
  | collector =>
    congr 1
    · exact List.append_nil _
    · exact List.append_nil _
  | logger =>
    congr 1
    · exact List.append_nil _
    · exact List.append_nil _

end Converter

namespace Work

/-- Takes up an outcome: everything but the counters of points and of late samples, which wait for
the end of the resource. -/
def take (work : Work V) (tracker : Tracker V) (outcome : Outcome V) : Work V :=
  let counts := work.converter.counts
  ⟨{ work.converter with
      tracker
      counts := if work.converter.counting then counts.addProblems outcome.notices else counts },
    work.converted.append (work.converter.shown outcome)⟩

theorem take_take (work : Work V) (first second : Tracker V) (a b : Outcome V) :
    (work.take first a).take second b = work.take second (a ++ b) := by
  show Work.mk (Converter.mk _ _ _ _ _) (Converted.append _ _) =
    Work.mk (Converter.mk _ _ _ _ _) (Converted.append _ _)
  rw [Converter.shown_append, ← Converted.append_assoc, Outcome.notices_append,
    Counts.addProblems_append]
  congr 2
  cases h : work.converter.counting <;> simp [take, h]

theorem take_empty (work : Work V) : work.take work.converter.tracker .empty = work := by
  show Work.mk (Converter.mk _ _ _ _ (if _ then Counts.addProblems _ [] else _))
    (work.converted.append (work.converter.shown .empty)) = _
  rw [Counts.addProblems_of_remarks _ rfl, ite_self, Converter.shown_empty, Converted.append_none]

/-- What is said on the way is taken up at once. -/
theorem note_eq (work : Work V) (notice : Notice V) :
    work.note notice = work.take work.converter.tracker ⟨[], 0, [notice]⟩ := by
  cases notice with
  | remark remark =>
    show Work.mk (Converter.mk _ _ _ _ _) (Converted.mk _ _ _ _) =
      Work.mk (Converter.mk _ _ _ _ (if _ then _ else _)) _
    rw [Converter.append_remark, Counts.addProblems_of_remarks _ rfl, ite_self]
  | problem problem =>
    show Work.mk (Converter.mk _ _ _ _ _) (Observer.hear _ _ _) =
      Work.mk (Converter.mk _ _ _ _ _) _
    rw [Converter.append_problem, Counts.addProblems_problem]

theorem foldl_note (work : Work V) (notices : List (Notice V)) :
    notices.foldl note work = work.take work.converter.tracker ⟨[], 0, notices⟩ := by
  induction notices generalizing work with
  | nil => exact work.take_empty.symm
  | cons notice rest ih =>
    rw [List.foldl_cons, ih, note_eq, take_take]
    rfl

variable [Amount V]

/-- To run a plan is to take up its outcome. -/
theorem run_eq (now : Nat) (work : Work V) (plan : Plan V) :
    let ran := Plan.run now plan work.converter.tracker
    work.run now plan = work.take ran.2 ran.1 := by
  intro ran
  unfold run
  simp only [foldl_note]
  show Work.mk _ (Converted.mk _ _ _ _) = Work.mk _ (Converted.mk _ _ _ _)
  congr 2
  exact congrArg (· ++ _) (List.append_nil _)

theorem run_nil (now : Nat) (work : Work V) : work.run now [] = work :=
  (work.run_eq now []).trans work.take_empty

theorem run_run (now : Nat) (work : Work V) (first second : Plan V) :
    (work.run now first).run now second = work.run now (first ++ second) := by
  rw [run_eq, run_eq, run_eq, Plan.run_append]
  exact take_take _ _ _ _ _

/-- Plans that are run one by one may be run as one. -/
theorem foldl_run {α : Type} (now : Nat) (plan : α → Plan V) (work : Work V) (each : List α) :
    each.foldl (fun work one => work.run now (plan one)) work =
      work.run now (each.flatMap plan) := by
  induction each generalizing work with
  | nil => exact (work.run_nil now).symm
  | cons one rest ih => rw [List.foldl_cons, ih, run_run, List.flatMap_cons]

theorem diagnose_eq (now : Nat) (work : Work V) (problem : Problem) :
    work.diagnose problem = work.run now [.note (.problem problem)] := by
  rw [run_eq]
  exact work.note_eq (.problem problem)

/-- A resource is converted by running its plan. -/
theorem resource_eq (now : Nat) (work : Work V) (resource : ResourceMetrics V) :
    work.resource now resource = work.run now (resource.plan work.converter.settings) := by
  unfold Work.resource ResourceMetrics.plan
  dsimp only
  -- the loop over the metrics of a scope, and around it the loop over the scopes
  simp only [foldl_run]
  cases Source.resolve work.converter.settings.fallback resource.attributes with
  | ok source => rfl
  | error reason =>
    show run now (work.diagnose _) _ = run now work ([_] ++ _)
    rw [diagnose_eq now, run_run]
    rfl

end Work

namespace Converter

variable [Amount V]

/-- What a resource gives is what the outcome of its plan shows, and that is also what is
counted. -/
theorem convertResource_eq (converter : Converter V) (now : Nat) (resource : ResourceMetrics V) :
    let ran := Plan.run now (resource.plan converter.settings) converter.tracker
    converter.convertResource now resource =
      (converter.shown ran.1, { converter with tracker := ran.2 }.countAll (.of ran.1)) := by
  intro ran
  have hwork : Work.resource now ⟨converter, .none⟩ resource =
      Work.take ⟨converter, .none⟩ ran.2 ran.1 := by
    rw [Work.resource_eq, Work.run_eq]
  have hshown : (Work.resource now ⟨converter, .none⟩ resource).converted =
      converter.shown ran.1 := by
    rw [hwork]
    exact Converted.none_append _
  unfold convertResource
  dsimp only
  rw [hshown, hwork]
  apply Prod.ext
  · rfl
  · show Converter.mk _ _ _ _ _ = Converter.mk _ _ _ _ _
    congr 1
    cases h : converter.counting with
    | false => simp [count, Work.take, h]
    | true => simpa [count, Work.take, shown, h] using converter.counts.advance_addProblems ran.1

/-- What a batch gives is what the outcome of its plan shows, and that is also what is counted. -/
theorem convert_eq (converter : Converter V) (now : Nat) (batch : Batch V) :
    let ran := Plan.run now (Batch.plan converter.settings batch) converter.tracker
    converter.convert now batch =
      (converter.shown ran.1, { converter with tracker := ran.2 }.countAll (.of ran.1)) := by
  intro ran
  induction batch generalizing converter with
  | nil =>
    show (Converted.none, converter) =
      (converter.shown .empty, Converter.mk _ _ _ _ (if _ then converter.counts.add 0 else _))
    rw [shown_empty, Counts.add_zero, ite_self]
    rfl
  | cons resource rest ih =>
    have hran : ran = _ := Plan.run_append now (resource.plan converter.settings)
      (Batch.plan converter.settings rest) converter.tracker
    rw [hran, convert, ih, convertResource_eq, shown_append, Report.of_append, ← countAll_countAll]
    rfl

theorem fst_convert (converter : Converter V) (now : Nat) (batch : Batch V) :
    (converter.convert now batch).1 =
      converter.shown (Plan.run now (Batch.plan converter.settings batch) converter.tracker).1 := by
  rw [convert_eq]

theorem tracker_convert_eq_run (converter : Converter V) (now : Nat) (batch : Batch V) :
    (converter.convert now batch).2.tracker =
      (Plan.run now (Batch.plan converter.settings batch) converter.tracker).2 := by
  rw [convert_eq]
  rfl

/-- A batch leaves the tracker as its samples do. -/
theorem tracker_convert (converter : Converter V) (now : Nat) (batch : Batch V) :
    (converter.convert now batch).2.tracker =
      (converter.tracker.observeAll now (Batch.plan converter.settings batch).samples).2 := by
  rw [tracker_convert_eq_run, Plan.tracker_run]

theorem settings_convert (converter : Converter V) (now : Nat) (batch : Batch V) :
    (converter.convert now batch).2.settings = converter.settings := by
  rw [convert_eq]
  rfl

theorem observer_convert (converter : Converter V) (now : Nat) (batch : Batch V) :
    (converter.convert now batch).2.observer = converter.observer := by
  rw [convert_eq]
  rfl

theorem counting_convert (converter : Converter V) (now : Nat) (batch : Batch V) :
    (converter.convert now batch).2.counting = converter.counting := by
  rw [convert_eq]
  rfl

/-- The counters go on by the report of the batch, unless nothing is counted. -/
theorem counts_convert (converter : Converter V) (now : Nat) (batch : Batch V) :
    (converter.convert now batch).2.counts =
      if converter.counting then converter.counts.add (converter.convert now batch).1.report
      else converter.counts := by
  rw [convert_eq]
  rfl

/-- A resource alone is converted by running its plan. -/
theorem fst_convert_singleton (converter : Converter V) (now : Nat)
    (resource : ResourceMetrics V) :
    (converter.convert now [resource]).1 =
      converter.shown (Plan.run now (resource.plan converter.settings) converter.tracker).1 := by
  rw [fst_convert, Batch.plan_singleton]

theorem tracker_convert_singleton (converter : Converter V) (now : Nat)
    (resource : ResourceMetrics V) :
    (converter.convert now [resource]).2.tracker =
      (Plan.run now (resource.plan converter.settings) converter.tracker).2 := by
  rw [tracker_convert_eq_run, Batch.plan_singleton]

end Converter

end MetricPoints
