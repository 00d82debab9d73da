import MetricPoints.Text.Sorted

/-
  Series: what makes a stream of values one series. The tags stand in increasing order and none
  twice, so that two series are equal exactly when they have the same name, host and origin and
  the same set of tags (`of_eq_of_iff`).
-/

namespace MetricPoints

/-- The identity of one stream of values. -/
structure Series where
  name : String
  tags : List String
  host : Option String
  origin : Option String
  increasing : Text.Increasing tags
  deriving DecidableEq

namespace Series

/-- The series with these tags, given in any order and with any repetitions. -/
def of (name : String) (tags : List String) (host origin : Option String) : Series :=
  ⟨name, Text.ordered tags, host, origin, Text.increasing_ordered tags⟩

@[simp] theorem name_of (name : String) (tags : List String) (host origin : Option String) :
    (of name tags host origin).name = name := rfl

theorem of_eq_of_iff {m n : String} {xs ys : List String} {h k o p : Option String} :
    of m xs h o = of n ys k p ↔ m = n ∧ h = k ∧ o = p ∧ ∀ tag, tag ∈ xs ↔ tag ∈ ys := by
  constructor
  · intro e
    have ⟨hn, ht, hh, ho⟩ := Series.mk.inj e
    refine ⟨hn, hh, ho, fun tag => ?_⟩
    rw [← Text.mem_ordered, ht, Text.mem_ordered]
  · rintro ⟨rfl, rfl, rfl, ht⟩
    have : Text.ordered xs = Text.ordered ys :=
      Text.eq_of_increasing (Text.increasing_ordered xs) (Text.increasing_ordered ys) fun a => by
        rw [Text.mem_ordered, Text.mem_ordered, ht]
    simp only [of, this]

end Series

end MetricPoints
