import MetricPoints.Batch

/-
  Notices: what is said about input on the way. A problem is for the observer, a remark is for the
  log; an observer that logs turns problems into warnings.
-/

namespace MetricPoints

/-- The kinds of data that have a temporality. -/
inductive DataKind where
  | sum
  | histogram
  | exponentialHistogram
  deriving DecidableEq, Repr

def DataKind.name : DataKind → String
  | sum => "sum"
  | histogram => "histogram"
  | exponentialHistogram => "exponential_histogram"

/-- Why a metric, or the host of a resource, is left out. -/
inductive Problem where
  | unknownType (metric : String)
  | unsupportedTemporality (metric : String) (kind : DataKind) (code : Int)
  | sourceUnavailable (reason : String)
  deriving DecidableEq, Repr

/-- The kinds of problems. -/
inductive ProblemKind where
  | unknownType
  | unsupportedTemporality
  | sourceUnavailable
  deriving DecidableEq, Repr

def ProblemKind.name : ProblemKind → String
  | unknownType => "unknown_metric_type"
  | unsupportedTemporality => "unsupported_aggregation_temporality"
  | sourceUnavailable => "source_unavailable"

def Problem.kind : Problem → ProblemKind
  | unknownType _ => .unknownType
  | unsupportedTemporality _ _ _ => .unsupportedTemporality
  | sourceUnavailable _ => .sourceUnavailable

/-- Why a value is left out. -/
inductive Remark (V : Type) where
  | unusableNumber (metric : String) (value : V)
  | unusableStatistic (metric field : String) (value : V)
  | unusableSummarySum (metric : String) (sum : V)
  | unusableQuantile (metric : String) (quantile : Float)
  | mismatchedBounds (metric : String) (buckets bounds : Nat)
  | lateTotal (metric : String) (time : Nat)
  deriving DecidableEq

/-- A problem or a remark. -/
inductive Notice (V : Type) where
  | problem (problem : Problem)
  | remark (remark : Remark V)
  deriving DecidableEq

/-- The problem in a notice. -/
def Notice.problem? {V : Type} : Notice V → Option Problem
  | .problem p => some p
  | .remark _ => none

/-- How much an event matters. -/
inductive Level where
  | warn
  | debug
  deriving DecidableEq, Repr

def Level.name : Level → String
  | warn => "warn"
  | debug => "debug"

/-- A value in an event. -/
inductive Field (V : Type) where
  | text (s : String)
  | integer (i : Int)
  | real (x : Float)
  | amount (v : V)

/-- One line of a log. -/
structure Event (V : Type) where
  level : Level
  message : String
  fields : List (String × Field V)

variable {V : Type}

/-- The event of a remark. -/
def Remark.event : Remark V → Event V
  | .unusableNumber metric value =>
    ⟨.debug, "Skipping metric with unsupported value (NaN or Infinity).",
      [("metric_name", .text metric), ("value", .amount value)]⟩
  | .unusableStatistic metric field value =>
    ⟨.debug, "Skipping non-finite histogram value.",
      [("metric_name", .text metric), ("field", .text field), ("value", .amount value)]⟩
  | .unusableSummarySum metric sum =>
    ⟨.debug, "Skipping non-finite summary sum.",
      [("metric_name", .text metric), ("sum", .amount sum)]⟩
  | .unusableQuantile metric quantile =>
    ⟨.debug, "Skipping non-finite quantile value.",
      [("metric_name", .text metric), ("quantile", .real quantile)]⟩
  | .mismatchedBounds metric buckets bounds =>
    ⟨.debug, "Skipping histogram buckets with mismatched bounds.",
      [("metric_name", .text metric), ("buckets", .integer buckets),
        ("bounds", .integer bounds)]⟩
  | .lateTotal metric time =>
    ⟨.debug, "Dropping cumulative point with a timestamp not newer than the last one seen.",
      [("metric_name", .text metric), ("timestamp", .integer time)]⟩

/-- The warning of a problem. -/
def Problem.event : Problem → Event V
  | .unknownType metric =>
    ⟨.warn, "Unknown or unsupported metric type.", [("metric_name", .text metric)]⟩
  | .unsupportedTemporality metric kind code =>
    ⟨.warn, "Unknown or unsupported aggregation temporality.",
      [("metric_name", .text metric), ("data_type", .text kind.name),
        ("temporality", .integer code)]⟩
  | .sourceUnavailable reason =>
    ⟨.warn, "Failed to get fallback source. Translating without host.",
      [("error", .text reason)]⟩

/-- The warning that settings give when the metadata of the library is set aside. -/
def libraryTagsDropped : Event V :=
  ⟨.warn, "Both instrumentation library and instrumentation scope metadata tags are enabled. "
    ++ "Using instrumentation scope metadata tags only.", []⟩

/-- Who hears of problems: someone who collects them, or the log. -/
inductive Observer where
  | collector
  | logger
  deriving DecidableEq, Repr

/-- The problems that reach a collector. -/
def Observer.problems (observer : Observer) (notices : List (Notice V)) : List Problem :=
  match observer with
  | .collector => notices.filterMap Notice.problem?
  | .logger => []

/-- The event of a notice, if it reaches the log. -/
def Observer.event? (observer : Observer) : Notice V → Option (Event V)
  | .remark r => some r.event
  | .problem p =>
    match observer with
    | .collector => none
    | .logger => some p.event

/-- The events that reach the log. -/
def Observer.events (observer : Observer) (notices : List (Notice V)) : List (Event V) :=
  notices.filterMap observer.event?

end MetricPoints
