import MetricPoints.Attribute
import MetricPoints.Resource.Convention
import MetricPoints.Table
import MetricPoints.Text.Cut

/-
  Container tags of a resource: names with values. Attributes with a conventional key come first;
  an attribute that names its tag itself counts once for each name, and only where no conventional
  attribute has taken the name.
-/

namespace MetricPoints.Container

/-- The container tag of an attribute with a conventional key. -/
def conventional? (a : Attribute) : Option (String × String) := do
  let value ← a.filledText?
  let name ← Convention.container.lookup a.key
  return (name, value)

/-- The container tag of an attribute that names it itself. -/
def custom? (a : Attribute) : Option (String × String) := do
  let value ← a.filledText?
  let name ← Text.rest? Convention.containerTagStart a.key
  if name = "" then none else return (name, value)

/-- The first pair of each name that is not taken yet. -/
def untaken (taken : List String) : List (String × String) → List (String × String)
  | [] => []
  | (name, value) :: rest =>
    if name ∈ taken then untaken taken rest
    else (name, value) :: untaken (name :: taken) rest

/-- The container tags of a resource, in order. -/
def pairs (attributes : List Attribute) : List (String × String) :=
  let conventional := attributes.filterMap conventional?
  conventional ++ untaken (conventional.map Prod.fst) (attributes.filterMap custom?)

/-- The container tags of a resource by name; the last value of a name counts. -/
def table (attributes : List Attribute) : Table String String :=
  Table.ofList (pairs attributes)

/-- The entry of a plain map under its tag name, when its key is conventional. -/
def renamed? (entry : String × String) : Option (String × String) :=
  (Convention.container.lookup entry.1).map (·, entry.2)

/-- The container tags of a plain map: conventional keys renamed, values as they are. -/
def tableOfMap (entries : List (String × String)) : Table String String :=
  Table.ofList (entries.filterMap renamed?)

end MetricPoints.Container
