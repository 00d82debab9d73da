import MetricPoints.Plan.Aggregated
import MetricPoints.Plan.Number
import MetricPoints.Resource.Scope

/-
  Plans for whole batches. What a resource, its scope and its source contribute to labels is fixed
  first; then every metric has a plan of its own, point by point. The plan of a batch is that of its
  parts in order.
-/

namespace MetricPoints

variable {V : Type} [Amount V]

/-- The labels that points of one resource and scope share, all but the name. -/
structure Context where
  tags : Tags
  host : Option String
  origin : Option String

namespace Context

/-- The labels of a metric. -/
def labels (context : Context) (name : String) : Labels :=
  ⟨name, context.tags, context.host, context.origin⟩

/-- The tags that a source gives. Only a task gives one. -/
def sourceTags : Except String Source → List Tag
  | .ok (.task arn) => [⟨(Source.task arn).text⟩]
  | _ => []

/-- The host that a source gives. An empty name gives none. -/
def sourceHost : Except String Source → Option String
  | .ok (.host name) => if name = "" then none else some name
  | _ => none

/-- What a resource contributes. -/
def ofResource (settings : Settings) (attributes : List Attribute) : Context :=
  let source := Source.resolve settings.fallback attributes
  let shown := if settings.resourceTags then Resource.scalarTags attributes else []
  { tags := ((Resource.tags attributes).addAll shown).addAll (sourceTags source)
    host := sourceHost source
    origin := if originOf attributes = "" then none else some (originOf attributes) }

/-- What a scope adds. -/
def inScope (context : Context) (settings : Settings) (scope : Option Scope) : Context :=
  { context with tags := context.tags.addAll (Scope.tags settings.scopeMode scope) }

end Context

/-- The plans of the data points for which a value was recorded, in order. -/
def pointPlans {α : Type} (plan : DataPoint α → Plan V) (points : List (DataPoint α)) : Plan V :=
  (points.filter DataPoint.recorded).flatMap plan

/-- The plan for a metric with an unsupported temporality: a problem. -/
def unsupported (name : String) (kind : DataKind) (code : Int) : Plan V :=
  [.note (.problem (.unsupportedTemporality name kind code))]

/-- The plan for a metric with these labels. -/
def MetricData.plan (settings : Settings) (labels : Labels) : MetricData V → Plan V
  | .unknown => [.note (.problem (.unknownType labels.name))]
  | .gauge points => pointPlans (NumberPoint.plan .gauge labels) points
  | .sum code monotonic points =>
    match Temporality.ofCode? code with
    | some .cumulative =>
      if monotonic && settings.totalMode = .increases then
        pointPlans (NumberPoint.totalPlan labels) points
      else
        pointPlans (NumberPoint.plan .gauge labels) points
    | some .delta => pointPlans (NumberPoint.plan .count labels) points
    | none => unsupported labels.name .sum code
  | .histogram code points =>
    match Temporality.ofCode? code with
    | some temporality =>
      pointPlans (Aggregated.pointPlan settings labels (.histogram temporality)) points
    | none => unsupported labels.name .histogram code
  | .exponential code points =>
    match Temporality.ofCode? code with
    | some .delta => pointPlans (Aggregated.pointPlan settings labels .exponential) points
    | _ => unsupported labels.name .exponentialHistogram code
  | .summary points =>
    pointPlans (Aggregated.pointPlan settings labels .summary) points

/-- The plan for a metric in its context. -/
def Metric.plan (settings : Settings) (context : Context) (metric : Metric V) : Plan V :=
  metric.data.plan settings (context.labels metric.name)

/-- The plan for the metrics of a scope. -/
def ScopeMetrics.plan (settings : Settings) (context : Context) (scope : ScopeMetrics V) :
    Plan V :=
  scope.metrics.flatMap (Metric.plan settings (context.inScope settings scope.scope))

/-- The problem of a resource whose source is not known. -/
def sourceProblems : Except String Source → Plan V
  | .ok _ => []
  | .error reason => [.note (.problem (.sourceUnavailable reason))]

/-- The plan for a resource. -/
def ResourceMetrics.plan (settings : Settings) (resource : ResourceMetrics V) : Plan V :=
  sourceProblems (Source.resolve settings.fallback resource.attributes) ++
    resource.scopes.flatMap
      (ScopeMetrics.plan settings (Context.ofResource settings resource.attributes))

/-- A batch: resources in order. -/
abbrev Batch (V : Type) := List (ResourceMetrics V)

/-- The plan for a batch. -/
def Batch.plan (settings : Settings) (batch : Batch V) : Plan V :=
  batch.flatMap (ResourceMetrics.plan settings)

theorem Batch.plan_singleton (settings : Settings) (resource : ResourceMetrics V) :
    Batch.plan settings [resource] = resource.plan settings :=
  List.flatMap_singleton _ _

end MetricPoints
