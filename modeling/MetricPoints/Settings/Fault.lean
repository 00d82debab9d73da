import MetricPoints.Text.Quoted

/-
  What can be wrong with a setting, and how it is said.
-/

namespace MetricPoints

/-- Why settings are refused. -/
inductive Fault where
  | lifetimeNotPositive (seconds : Int)
  | unknownBucketMode (name : String)
  | unknownTotalMode (name : String)
  | unknownSummaryMode (name : String)
  deriving DecidableEq, Repr

/-- The fault with the number or the text that was refused. -/
def Fault.message : Fault → String
  | .lifetimeNotPositive seconds => "time to live must be positive: " ++ seconds.repr
  | .unknownBucketMode name => "unknown histogram mode: " ++ Text.quoted name
  | .unknownTotalMode name => "unknown number mode: " ++ Text.quoted name
  | .unknownSummaryMode name => "unknown summary mode: " ++ Text.quoted name

end MetricPoints
