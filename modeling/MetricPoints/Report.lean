import MetricPoints.Plan

/-
  Reports and counters. A report says of one call how many points it gave, how many samples were
  late, and how many problems of each kind there were. Counters go on from call to call, each under
  a name of its own. Main statements: the report of two outcomes is the sum of theirs (`of_append`),
  and under the name of a counter stands what it reads (`Counts.lookup_named`).
-/

namespace MetricPoints

/-- The counts of a call. -/
structure Report where
  points : Nat
  late : Nat
  unknownType : Nat
  unsupportedTemporality : Nat
  sourceUnavailable : Nat
  deriving DecidableEq, Repr

namespace Report

variable {V : Type}

/-- Nothing happened. -/
def zero : Report := ⟨0, 0, 0, 0, 0⟩

instance : Zero Report := ⟨zero⟩

/-- Counts added up. -/
def add (a b : Report) : Report :=
  ⟨a.points + b.points, a.late + b.late, a.unknownType + b.unknownType,
    a.unsupportedTemporality + b.unsupportedTemporality,
    a.sourceUnavailable + b.sourceUnavailable⟩

instance : Add Report := ⟨add⟩

/-- The number of problems of a kind. -/
def problems (report : Report) : ProblemKind → Nat
  | .unknownType => report.unknownType
  | .unsupportedTemporality => report.unsupportedTemporality
  | .sourceUnavailable => report.sourceUnavailable

/-- One more problem of a kind. -/
def record (report : Report) : ProblemKind → Report
  | .unknownType => { report with unknownType := report.unknownType + 1 }
  | .unsupportedTemporality =>
    { report with unsupportedTemporality := report.unsupportedTemporality + 1 }
  | .sourceUnavailable => { report with sourceUnavailable := report.sourceUnavailable + 1 }

/-- How many of the notices are problems of a kind. -/
def countKind (kind : ProblemKind) (notices : List (Notice V)) : Nat :=
  (notices.filterMap Notice.problem?).countP (·.kind = kind)

/-- The report of an outcome. -/
def of (outcome : Outcome V) : Report :=
  ⟨outcome.points.length, outcome.late, countKind .unknownType outcome.notices,
    countKind .unsupportedTemporality outcome.notices,
    countKind .sourceUnavailable outcome.notices⟩

@[ext] theorem ext {a b : Report} (hp : a.points = b.points) (hl : a.late = b.late)
    (hk : ∀ kind, a.problems kind = b.problems kind) : a = b := by
  have h₁ := hk .unknownType
  have h₂ := hk .unsupportedTemporality
  have h₃ := hk .sourceUnavailable
  cases a; cases b
  simp_all [problems]

theorem problems_add (a b : Report) (kind : ProblemKind) :
    (a + b).problems kind = a.problems kind + b.problems kind := by
  cases kind <;> rfl

theorem add_assoc (a b c : Report) : a + b + c = a + (b + c) := by
  apply ext
  · exact Nat.add_assoc _ _ _
  · exact Nat.add_assoc _ _ _
  · intro kind
    simp only [problems_add, Nat.add_assoc]

theorem add_zero (a : Report) : a + 0 = a := rfl

theorem zero_add (a : Report) : 0 + a = a := by
  apply ext
  · exact Nat.zero_add _
  · exact Nat.zero_add _
  · intro kind
    rw [problems_add]
    cases kind <;> exact Nat.zero_add _

theorem countKind_append (kind : ProblemKind) (first second : List (Notice V)) :
    countKind kind (first ++ second) = countKind kind first + countKind kind second := by
  rw [countKind, List.filterMap_append, List.countP_append]
  rfl

theorem countKind_problem (kind : ProblemKind) (problem : Problem) :
    countKind kind [(.problem problem : Notice V)] = if kind = problem.kind then 1 else 0 := by
  simp [countKind, Notice.problem?, eq_comm]

theorem problems_of (outcome : Outcome V) (kind : ProblemKind) :
    (of outcome).problems kind = countKind kind outcome.notices := by
  cases kind <;> rfl

theorem of_append (a b : Outcome V) : of (a ++ b) = of a + of b := by
  apply ext
  · exact List.length_append
  · rfl
  · intro kind
    rw [problems_add, problems_of, problems_of, problems_of, Outcome.notices_append,
      countKind_append]

/-- To record a problem is to add the report of its notice. -/
theorem record_kind (report : Report) (problem : Problem) :
    report.record problem.kind = report + of (⟨[], 0, [.problem problem]⟩ : Outcome V) := by
  apply ext
  · cases problem <;> rfl
  · cases problem <;> rfl
  · intro kind
    rw [problems_add, problems_of, countKind_problem]
    cases problem <;> cases kind <;> rfl

end Report

/-- What is counted from call to call. -/
inductive Counter where
  | points
  | late
  | problems (kind : ProblemKind)
  deriving DecidableEq, Repr

namespace Counter

/-- The counters, in the order in which they are registered. -/
def all : List Counter :=
  [points, late, problems .unknownType, problems .unsupportedTemporality,
    problems .sourceUnavailable]

/-- The name of a counter. -/
def name : Counter → String
  | points => "otlp_translator_points_translated_total"
  | late => "otlp_translator_points_dropped_total"
  | problems kind => "otlp_translator_diagnostics_total\x7bkind=" ++ kind.name ++ "\x7d"

/-- What a report says of a counter. -/
def reported (counter : Counter) (report : Report) : Nat :=
  match counter with
  | points => report.points
  | late => report.late
  | problems kind => report.problems kind

theorem mem_all (counter : Counter) : counter ∈ all := by
  cases counter with
  | points => decide
  | late => decide
  | problems kind => cases kind <;> decide

/-- No two counters have one name. -/
theorem name_inj {counter other : Counter} : counter.name = other.name ↔ counter = other := by
  have hall : ∀ a ∈ all, ∀ b ∈ all, a.name = b.name → a = b := by decide
  exact ⟨hall _ counter.mem_all _ other.mem_all, congrArg name⟩

/-- In a list of what counters read, each is found by its name. -/
theorem lookup_map_name (reads : Counter → Nat) {counter : Counter} {counters : List Counter}
    (h : counter ∈ counters) :
    (counters.map fun counter => (counter.name, reads counter)).lookup counter.name =
      some (reads counter) := by
  induction counters with
  | nil => exact absurd h List.not_mem_nil
  | cons first rest ih =>
    rw [List.map_cons, List.lookup_cons]
    by_cases he : counter = first
    · rw [he, beq_self_eq_true]
    · rw [beq_false_of_ne (mt name_inj.mp he)]
      exact ih (List.mem_of_ne_of_mem he h)

theorem reported_zero (counter : Counter) : counter.reported 0 = 0 := by
  cases counter with
  | points => rfl
  | late => rfl
  | problems kind => cases kind <;> rfl

theorem reported_add (counter : Counter) (a b : Report) :
    counter.reported (a + b) = counter.reported a + counter.reported b := by
  cases counter with
  | points => rfl
  | late => rfl
  | problems kind => exact Report.problems_add a b kind

end Counter

/-- What the counters read. -/
structure Counts where
  reads : Counter → Nat

namespace Counts

/-- Nothing was counted yet. -/
def zero : Counts := ⟨fun _ => 0⟩

/-- Lets one counter go on. -/
def advance (counts : Counts) (counter : Counter) (n : Nat) : Counts :=
  ⟨fun other => counts.reads other + if other = counter then n else 0⟩

/-- Lets every counter go on by what a report says of it. -/
def add (counts : Counts) (report : Report) : Counts :=
  ⟨fun counter => counts.reads counter + counter.reported report⟩

/-- The counters by name, with what they read. -/
def named (counts : Counts) : List (String × Nat) :=
  Counter.all.map fun counter => (counter.name, counts.reads counter)

@[ext] theorem ext {a b : Counts} (h : ∀ counter, a.reads counter = b.reads counter) : a = b := by
  cases a; cases b
  exact congrArg mk (funext h)

theorem add_zero (counts : Counts) : counts.add 0 = counts := by
  apply ext
  intro counter
  show counts.reads counter + counter.reported 0 = counts.reads counter
  rw [Counter.reported_zero, Nat.add_zero]

theorem add_add (counts : Counts) (a b : Report) : (counts.add a).add b = counts.add (a + b) := by
  apply ext
  intro counter
  simp only [add, Counter.reported_add, Nat.add_assoc]

/-- Under the name of a counter stands what it reads. -/
theorem lookup_named (counts : Counts) (counter : Counter) :
    counts.named.lookup counter.name = some (counts.reads counter) :=
  Counter.lookup_map_name counts.reads counter.mem_all

end Counts

end MetricPoints
