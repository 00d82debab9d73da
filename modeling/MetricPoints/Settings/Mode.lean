import MetricPoints.Settings.Fault

/-
  Modes: how the buckets of histograms and the totals of monotonic sums are reported, and which
  metadata of a scope becomes tags. Main statement: a mode is read from its name and from nothing
  else (`ofName_eq_ok_iff`).
-/

namespace MetricPoints

/-- How the buckets of a histogram are reported: not at all, as one count for each bucket, or as one
distribution. -/
inductive BucketMode where
  | omitted
  | counters
  | distributions
  deriving DecidableEq, Repr

/-- How a cumulative monotonic sum is reported: by its increases, or as it stands. -/
inductive TotalMode where
  | increases
  | standing
  deriving DecidableEq, Repr

/-- Which metadata of a scope becomes tags. -/
inductive ScopeMode where
  | none
  | library
  | scope
  deriving DecidableEq, Repr

namespace BucketMode

def name : BucketMode → String
  | omitted => "nobuckets"
  | counters => "counters"
  | distributions => "distributions"

/-- The mode with a name. -/
def ofName (text : String) : Except Fault BucketMode :=
  match [omitted, counters, distributions].find? (·.name = text) with
  | some mode => .ok mode
  | none => .error (.unknownBucketMode text)

theorem ofName_name (mode : BucketMode) : ofName mode.name = .ok mode := by
  cases mode <;> rfl

theorem ofName_eq_ok_iff {text : String} {mode : BucketMode} :
    ofName text = .ok mode ↔ mode.name = text := by
  constructor
  · intro h
    unfold ofName at h
    split at h
    · rename_i found hf
      injection h with h
      subst h
      simpa using List.find?_some hf
    · cases h
  · rintro rfl
    exact ofName_name mode

end BucketMode

namespace TotalMode

def name : TotalMode → String
  | increases => "cumulative_to_delta"
  | standing => "raw_value"

/-- The mode with a name. -/
def ofName (text : String) : Except Fault TotalMode :=
  match [increases, standing].find? (·.name = text) with
  | some mode => .ok mode
  | none => .error (.unknownTotalMode text)

theorem ofName_name (mode : TotalMode) : ofName mode.name = .ok mode := by
  cases mode <;> rfl

theorem ofName_eq_ok_iff {text : String} {mode : TotalMode} :
    ofName text = .ok mode ↔ mode.name = text := by
  constructor
  · intro h
    unfold ofName at h
    split at h
    · rename_i found hf
      injection h with h
      subst h
      simpa using List.find?_some hf
    · cases h
  · rintro rfl
    exact ofName_name mode

end TotalMode

end MetricPoints
