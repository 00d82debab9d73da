import MetricPoints.Decimal.Positional

/-
  Attributes: keys with values, as resources, scopes and data points carry them. A scalar value has
  a text and can become a tag; a list, a map or bytes cannot.
-/

namespace MetricPoints

/-- The value of an attribute. `composite` stands for a list, a map or bytes, none of which is ever
shown in a tag. -/
inductive Value where
  | empty
  | text (s : String)
  | flag (b : Bool)
  | integer (i : Int)
  | real (x : Float)
  | composite
  deriving DecidableEq, Repr

/-- A key with its value. -/
structure Attribute where
  key : String
  value : Value
  deriving DecidableEq, Repr

namespace Attribute

/-- The value, when it is a text. -/
def text? (a : Attribute) : Option String :=
  match a.value with
  | .text s => some s
  | _ => none

/-- The value, when it is a text that is not empty. -/
def filledText? (a : Attribute) : Option String :=
  a.text?.filter (· ≠ "")

/-- The value as it is written in a tag, when it is a scalar. -/
def scalar? (a : Attribute) : Option String :=
  match a.value with
  | .text s => some s
  | .flag true => some "true"
  | .flag false => some "false"
  | .integer i => some i.repr
  | .real x => some (Decimal.text x)
  | .empty | .composite => none

theorem filledText?_eq_some_iff {a : Attribute} {s : String} :
    a.filledText? = some s ↔ a.text? = some s ∧ s ≠ "" := by
  rw [filledText?, Option.filter_eq_some_iff, decide_eq_true_iff]

end Attribute

/-- The text under `key`: the first attribute with that key decides, whatever its type. -/
def lookupText? (attributes : List Attribute) (key : String) : Option String :=
  (attributes.find? (·.key = key)).bind Attribute.text?

end MetricPoints
