import MetricPoints.Plan.Batch
import MetricPoints.Report

/-
  The converter: settings with a tracker, an observer and counters. It turns batch after batch into
  points. A resource is converted metric by metric, and report, observer, counters and consumer are
  each told at a place of their own: a problem goes to report, counter and observer when it is met,
  points and late samples to the report after each metric and to their counters once the resource is
  done.
-/

namespace MetricPoints

variable {V : Type}

/-- A converter, where it stands between batches. `counting` says whether counts are kept. -/
structure Converter (V : Type) where
  settings : Settings
  tracker : Tracker V
  observer : Observer
  counting : Bool
  counts : Counts

/-- Why a converter cannot start. -/
inductive StartFault where
  | noRuntime
  deriving DecidableEq, Repr

def StartFault.message : StartFault → String
  | .noRuntime => "no Tokio runtime available to run the delta cache sweeper"

/-- What a batch gives: the points that the consumer gets, the report, the problems that are
collected and the events of the log. -/
structure Converted (V : Type) where
  points : List (Point V)
  report : Report
  problems : List Problem
  events : List (Event V)

namespace Converted

/-- Nothing converted. -/
def none : Converted V := ⟨[], 0, [], []⟩

/-- What was converted first, then what was converted second. -/
def append (first second : Converted V) : Converted V :=
  ⟨first.points ++ second.points, first.report + second.report,
    first.problems ++ second.problems, first.events ++ second.events⟩

end Converted

/-- Tells an observer of a problem: it is collected, or the log gets a warning. -/
def Observer.hear (observer : Observer) (converted : Converted V) (problem : Problem) :
    Converted V :=
  match observer with
  | .collector => { converted with problems := converted.problems ++ [problem] }
  | .logger => { converted with events := converted.events ++ [problem.event] }

namespace Converter

/-- A converter that has seen nothing. Its tracker needs a runtime for its sweeper. -/
def start (settings : Settings) (observer : Observer) (counting runtime : Bool) :
    Except StartFault (Converter V) :=
  if runtime then
    .ok ⟨settings, .empty (settings.lifetime * Amount.second), observer, counting, .zero⟩
  else
    .error .noRuntime

/-- Lets a counter go on, unless nothing is counted. -/
def count (converter : Converter V) (counter : Counter) (n : Nat) : Converter V :=
  { converter with
    counts := if converter.counting then converter.counts.advance counter n else converter.counts }

end Converter

/-- A converter at work on a resource, with what it has given so far. -/
structure Work (V : Type) where
  converter : Converter V
  converted : Converted V

namespace Work

/-- A problem goes into the report, to its counter and to the observer. -/
def diagnose (work : Work V) (problem : Problem) : Work V :=
  let kind := problem.kind
  let recorded := { work.converted with report := work.converted.report.record kind }
  ⟨work.converter.count (.problems kind) 1, work.converter.observer.hear recorded problem⟩

/-- Passes on what is said on the way: a problem to whom it concerns, a remark to the log. -/
def note (work : Work V) : Notice V → Work V
  | .problem problem => work.diagnose problem
  | .remark remark =>
    { work with
      converted := { work.converted with events := work.converted.events ++ [remark.event] } }

variable [Amount V]

/-- Runs the plan of a metric. What it says on the way is passed on; then its late samples and its
points are reported, and the consumer gets the points. -/
def run (now : Nat) (work : Work V) (plan : Plan V) : Work V :=
  let (outcome, tracker) := Plan.run now plan work.converter.tracker
  let noted := outcome.notices.foldl note
    { work with converter := { work.converter with tracker } }
  let report := noted.converted.report
  { noted with
    converted :=
      { noted.converted with
        points := noted.converted.points ++ outcome.points
        report :=
          { report with
            points := report.points + outcome.points.length
            late := report.late + outcome.late } } }

/-- Converts a resource, metric by metric. If its source is not known, that is said first. -/
def resource (now : Nat) (work : Work V) (resource : ResourceMetrics V) : Work V :=
  let settings := work.converter.settings
  let started :=
    match Source.resolve settings.fallback resource.attributes with
    | .ok _ => work
    | .error reason => work.diagnose (.sourceUnavailable reason)
  let context := Context.ofResource settings resource.attributes
  resource.scopes.foldl (fun work scope =>
    let context := context.inScope settings scope.scope
    scope.metrics.foldl (fun work metric => work.run now (metric.plan settings context)) work)
    started

end Work

namespace Converter

variable [Amount V]

/-- Turns a resource into points. The counters of points and of late samples go on once the resource
is done, by what its report says. -/
def convertResource (converter : Converter V) (now : Nat) (resource : ResourceMetrics V) :
    Converted V × Converter V :=
  let work := Work.resource now ⟨converter, .none⟩ resource
  let report := work.converted.report
  (work.converted, (work.converter.count .points report.points).count .late report.late)

/-- Turns a batch into points while the clock reads `now`, resource by resource. -/
def convert (converter : Converter V) (now : Nat) : Batch V → Converted V × Converter V
  | [] => (.none, converter)
  | resource :: rest =>
    let first := converter.convertResource now resource
    let more := first.2.convert now rest
    (first.1.append more.1, more.2)

/-- Turns batch after batch into points. -/
def convertAll (converter : Converter V) (now : Nat) :
    List (Batch V) → List (Converted V) × Converter V
  | [] => ([], converter)
  | batch :: rest =>
    let first := converter.convert now batch
    let more := first.2.convertAll now rest
    (first.1 :: more.1, more.2)

end Converter

end MetricPoints
