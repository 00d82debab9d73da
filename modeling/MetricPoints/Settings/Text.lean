import MetricPoints.Settings

/-
  Settings in one line of text.
-/

namespace MetricPoints

/-- The name of a mode in the text of settings. -/
def BucketMode.label : BucketMode → String
  | .omitted => "NoBuckets"
  | .counters => "Counters"
  | .distributions => "Distributions"

/-- The name of a mode in the text of settings. -/
def TotalMode.label : TotalMode → String
  | .increases => "CumulativeToDelta"
  | .standing => "RawValue"

/-- The name of a mode in the text of settings. -/
def ScopeMode.label : ScopeMode → String
  | .none => "None"
  | .library => "InstrumentationLibrary"
  | .scope => "InstrumentationScope"

namespace Settings

/-- A truth value in the text of settings. -/
def flagText (b : Bool) : String := if b then "true" else "false"

/-- The settings with their names. The fallback has no text. -/
def text (settings : Settings) : String :=
  let fields := [
    ("histogram_mode", settings.bucketMode.label),
    ("number_mode", settings.totalMode.label),
    ("quantiles", flagText settings.quantiles),
    ("send_histogram_aggregations", flagText settings.aggregations),
    ("resource_attributes_as_tags", flagText settings.resourceTags),
    ("scope_metadata_tags", settings.scopeMode.label),
    ("delta_ttl", settings.lifetime.repr ++ "s"),
    ("sweep_interval", settings.sweepInterval.repr ++ "s")]
  "TranslatorConfig \x7b " ++ ", ".intercalate (fields.map fun f => f.1 ++ ": " ++ f.2)
    ++ ", .. \x7d"

end Settings

end MetricPoints
