import MetricPoints.Batch
import MetricPoints.Settings.Mode
import MetricPoints.Tags

/-
  The tags of a scope, as far as the settings ask for them.
-/

namespace MetricPoints.Scope

/-- What stands for an empty name or version. -/
def orUnknown (text : String) : String := if text = "" then "n/a" else text

/-- The texts among the attributes, as tags. -/
def attributeTags (attributes : List Attribute) : List Tag :=
  attributes.filterMap fun a => a.text?.map (Tag.pair a.key)

/-- The tags of a scope. A scope that is missing has neither name nor version nor attributes. -/
def tags (mode : ScopeMode) (scope : Option Scope) : List Tag :=
  let scope := scope.getD ⟨"", "", []⟩
  match mode with
  | .none => []
  | .library =>
    [.pair "instrumentation_library" (orUnknown scope.name),
      .pair "instrumentation_library_version" (orUnknown scope.version)]
  | .scope =>
    .pair "instrumentation_scope" (orUnknown scope.name)
      :: .pair "instrumentation_scope_version" (orUnknown scope.version)
      :: attributeTags scope.attributes

end MetricPoints.Scope
