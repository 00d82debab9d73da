import MetricPoints.Settings.Configuration

/-
  Settings read from a document: a tree of sections, lists and scalars. A section is written as a
  map, or as a list of its values in order; what is missing keeps its default, unknown names are
  ignored, and a value of the wrong kind makes the document unreadable.
-/

namespace MetricPoints

/-- A tree of values as documents hold them. `real` stands for a number that is not written as a
whole one. -/
inductive Document where
  | null
  | flag (b : Bool)
  | integer (i : Int)
  | real
  | text (s : String)
  | list (items : List Document)
  | map (entries : List (String × Document))
  deriving Inhabited

namespace Document

/-- The values of a section by name. -/
def Section : Type := String → Option Document

/-- Reads a section with these names. A list gives their values in order and has no more values than
there are names; of two entries with one name in a map the last one counts. -/
def section? (names : List String) : Document → Option Section
  | .map entries => some fun name => entries.reverse.lookup name
  | .list items => if items.length ≤ names.length then some (List.lookup · (names.zip items))
    else none
  | _ => none

def text? : Document → Option String
  | .text s => some s
  | _ => none

def flag? : Document → Option Bool
  | .flag b => some b
  | _ => none

/-- A whole number in 64 bits. -/
def integer? : Document → Option Int
  | .integer i => if Int64.minValue.toInt ≤ i ∧ i ≤ Int64.maxValue.toInt then some i else none
  | _ => none

/-- Reads a value that may be missing or null. -/
def optional {α : Type} (read : Document → Option α) : Option Document → Option (Option α)
  | none | some .null => some none
  | some d => (read d).map some

/-- Reads a value that may be missing, in which case it is `other`. -/
def orElse {α : Type} (other : α) (read : Document → Option α) : Option Document → Option α
  | none => some other
  | some d => read d

/-- The section on histograms: the mode, and whether aggregations are wanted. -/
def histograms? (d : Document) : Option (Option String × Bool) := do
  let fields ← d.section? ["mode", "send_aggregation_metrics"]
  let mode ← optional text? (fields "mode")
  let aggregations ← orElse false flag? (fields "send_aggregation_metrics")
  return (mode, aggregations)

/-- The mode in the section on sums. -/
def sums? (d : Document) : Option (Option String) := do
  let fields ← d.section? ["cumulative_monotonic_mode"]
  optional text? (fields "cumulative_monotonic_mode")

/-- The mode in the section on summaries. -/
def summaries? (d : Document) : Option (Option String) := do
  let fields ← d.section? ["mode"]
  optional text? (fields "mode")

/-- The configuration that a document holds. -/
def configuration? (d : Document) : Option Configuration := do
  let fields ← d.section? ["delta_ttl", "resource_attributes_as_tags",
    "instrumentation_scope_metadata_as_tags", "histograms", "sums", "summaries"]
  let lifetime ← optional integer? (fields "delta_ttl")
  let resourceTags ← orElse false flag? (fields "resource_attributes_as_tags")
  let scopeTags ← orElse false flag? (fields "instrumentation_scope_metadata_as_tags")
  let (bucketMode, aggregations) ← orElse (none, false) histograms? (fields "histograms")
  let totalMode ← orElse none sums? (fields "sums")
  let summaryMode ← orElse none summaries? (fields "summaries")
  return { lifetime, bucketMode, aggregations, totalMode, summaryMode, resourceTags, scopeTags }

/-- The settings of a whole document, in the order in which they are applied. -/
def settings? (d : Document) : Option (List Setting) := d.configuration?.map Configuration.settings

end Document

end MetricPoints
