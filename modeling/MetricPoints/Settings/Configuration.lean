import MetricPoints.Settings

/-
  Configurations: settings as they are written down, where modes go by their names and anything may
  be left out. A configuration becomes a draft (`draft`), to which further settings can be applied.
-/

namespace MetricPoints

/-- What is written. `none` and `false` stand for what is left out. -/
structure Configuration where
  lifetime : Option Int
  bucketMode : Option String
  aggregations : Bool
  totalMode : Option String
  summaryMode : Option String
  resourceTags : Bool
  scopeTags : Bool
  deriving DecidableEq

namespace Configuration

/-- The settings that are written, in the order in which they are applied. -/
def settings (c : Configuration) : List Setting :=
  c.lifetime.toList.map .lifetime ++ c.bucketMode.toList.map .bucketModeNamed
    ++ (if c.aggregations then [.aggregations] else [])
    ++ c.totalMode.toList.map .totalModeWritten ++ c.summaryMode.toList.map .summaryModeWritten
    ++ (if c.resourceTags then [.resourceTags] else []) ++ if c.scopeTags then [.scopeTags] else []

/-- The draft that a configuration makes. -/
def draft (c : Configuration) : Draft := Draft.new.applyAll c.settings

end Configuration

end MetricPoints
