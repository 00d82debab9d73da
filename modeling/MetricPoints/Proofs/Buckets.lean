import MetricPoints.Plan.Histogram
import MetricPoints.Proofs.Decimal.Text

/-
  The buckets of a histogram are of distinct series. Their lower bounds have distinct texts, since
  finite bounds that increase are distinct numbers, and the text of a lower bound can be read off
  the tags of the bucket as long as the labels bring no tag of that name with them.
-/

namespace MetricPoints

namespace Histogram

variable {labels : Labels} {bounds : List Float}

/-- The lower bounds of the buckets. -/
theorem map_fst_bucketEdges (bounds : List Float) :
    (bucketEdges bounds).map Prod.fst = "-inf" :: bounds.map Decimal.text := by
  have hzip : bucketEdges bounds =
      ("-inf" :: bounds.map Decimal.text).zip (bounds.map Decimal.text ++ ["inf"]) := by
    show (("-inf" :: bounds.map Decimal.text) ++ ["inf"]).zip (bounds.map Decimal.text ++ ["inf"]) =
      _
    conv_lhs => rw [← List.append_nil (bounds.map Decimal.text ++ ["inf"])]
    rw [List.zip_append (by simp), List.zip_nil_right, List.append_nil]
  rw [hzip, List.map_fst_zip (by simp)]

/-- Bounds that increase have distinct texts, none of them that of an infinity. -/
theorem nodup_lowerBounds (hf : ∀ bound ∈ bounds, bound.isFinite = true)
    (hs : bounds.Pairwise (· < ·)) : ("-inf" :: bounds.map Decimal.text).Nodup := by
  rw [List.nodup_cons]
  refine ⟨?_, ?_⟩
  · intro hm
    obtain ⟨bound, hb, ht⟩ := List.mem_map.mp hm
    exact Decimal.text_ne_negInf (hf bound hb) ht
  · apply List.pairwise_map.mpr
    apply hs.imp_of_mem
    intro a b ha hb hlt ht
    have hab := Decimal.text_injective (hf a ha) (hf b hb) ht
    exact Decimal.not_lt_self b (hab ▸ hlt)

/-- A bucket gives its lower bound away. -/
theorem fst_eq_of_series_bucketLabels (hl : ∀ tag ∈ labels.tags, tag.name ≠ "lower_bound")
    {e e' : String × String}
    (h : (bucketLabels labels e).series = (bucketLabels labels e').series) : e.1 = e'.1 := by
  have hm : Tag.pair "lower_bound" e.1 ∈ (bucketLabels labels e).tags := by
    rw [bucketLabels, Labels.mem_tags_tagged]
    exact .inr List.mem_cons_self
  rw [(Labels.series_eq_iff.mp h).2.2.2, bucketLabels, Labels.mem_tags_tagged] at hm
  rcases hm with hm | hm
  · exact absurd (Tag.name_pair (by decide)) (hl _ hm)
  · rcases List.mem_cons.mp hm with hm | hm
    · exact Tag.pair_inj hm
    · have hn := congrArg Tag.name (List.mem_singleton.mp hm)
      rw [Tag.name_pair (by decide), Tag.name_pair (by decide)] at hn
      exact absurd hn (by decide)

/-- The buckets of a histogram are of distinct series. -/
theorem nodup_series_buckets (hl : ∀ tag ∈ labels.tags, tag.name ≠ "lower_bound")
    (hf : ∀ bound ∈ bounds, bound.isFinite = true) (hs : bounds.Pairwise (· < ·)) :
    ((bucketEdges bounds).map fun edge => (bucketLabels labels edge).series).Nodup := by
  have hd := nodup_lowerBounds hf hs
  rw [← map_fst_bucketEdges] at hd
  apply List.pairwise_map.mpr
  apply (List.pairwise_map.mp hd).imp
  exact fun hne he => hne (fst_eq_of_series_bucketLabels hl he)

end Histogram

end MetricPoints
