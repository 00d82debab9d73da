import MetricPoints.Attribute

/-
  What a resource is: a host by its name, or a task of a container service by its resource name.
  And where it originates: in a container or in a pod.
-/

namespace MetricPoints

/-- What sent the data. -/
inductive Source where
  | host (name : String)
  | task (arn : String)
  deriving DecidableEq, Repr

namespace Source

/-- The word for the kind of a source. -/
def kind : Source → String
  | .host _ => "host"
  | .task _ => "task_arn"

/-- The name of the host, or the resource name of the task. -/
def identifier : Source → String
  | .host name => name
  | .task arn => arn

/-- The source in one text. -/
def text (source : Source) : String := source.kind ++ ":" ++ source.identifier

/-- Says whether the attributes describe a task that runs without a host of its own. -/
def isFargate (attributes : List Attribute) : Bool :=
  lookupText? attributes "cloud.provider" = some "aws"
    && lookupText? attributes "cloud.platform" = some "aws_ecs"
    && lookupText? attributes "aws.ecs.launchtype" = some "fargate"

/-- The task that the attributes describe. -/
def task? (attributes : List Attribute) : Option Source :=
  if isFargate attributes then
    (lookupText? attributes "aws.ecs.task.arn").map .task
  else
    none

/-- The host that the attributes name; an empty name is none. -/
def host? (attributes : List Attribute) : Option Source :=
  (["datadog.host.name", "host.name"].findSome? fun key =>
    (lookupText? attributes key).filter (· ≠ "")).map .host

/-- The source of a resource, if its attributes tell. A task goes before a host. -/
def ofAttributes? (attributes : List Attribute) : Option Source :=
  (task? attributes).or (host? attributes)

/-- The source of a resource, or else what the fallback says. -/
def resolve (fallback : Except String Source) (attributes : List Attribute) :
    Except String Source :=
  match ofAttributes? attributes with
  | some source => .ok source
  | none => fallback

end Source

/-- Where a resource originates: its first container, or else its last pod; empty when unknown. -/
def originOf (attributes : List Attribute) : String :=
  let texts (key : String) := attributes.filterMap fun a => if a.key = key then a.text? else none
  match (texts "container.id").head?, (texts "k8s.pod.uid").getLast? with
  | some id, _ => "container_id://" ++ id
  | none, some uid => "kubernetes_pod_uid://" ++ uid
  | none, none => ""

end MetricPoints
