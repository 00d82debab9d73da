import MetricPoints.Proofs.Buckets
import MetricPoints.Proofs.Permuted

/-
  Which labels are of one series. A series is a canonical form of its name, host, origin and tags:
  the tags stand in the order of their code points, in whatever order and however often they were
  given. Labels come about in steps (`Labels.Revision`); whatever the steps, the tags are the set of
  what was given (`Labels.mem_tags_reviseAll`), and the series goes by that set.

  Where the keys of a data point's attributes cannot be mistaken for each other or for tags of the
  labels, a tag tells its attribute (`Labels.Distinctive.subset_of_tags_subset`), so that different
  attributes make different series.

  Main statements: `Labels.series_is_canonical`, `Labels.attributes_tell_series_apart`.
-/

namespace MetricPoints

/-! ## The order of code points -/

/-- The code points of a text. -/
def Text.codePoints (text : String) : List Nat := text.toList.map Char.toNat

theorem map_toNat_lt_iff {as bs : List Char} :
    as.map Char.toNat < bs.map Char.toNat ↔ as < bs := by
  induction as generalizing bs with
  | nil => cases bs <;> simp
  | cons a as ih =>
    cases bs with
    | nil => simp
    | cons b bs =>
      have hhead : a.toNat < b.toNat ↔ a < b := UInt32.lt_iff_toNat_lt.symm
      rw [List.map_cons, List.map_cons, List.cons_lt_cons_iff, List.cons_lt_cons_iff, ih, hhead,
        Char.toNat_inj]

/-- Texts are ordered by their code points, the first difference deciding. -/
theorem Text.codePoints_lt_iff {a b : String} : codePoints a < codePoints b ↔ a < b := by
  rw [codePoints, codePoints, map_toNat_lt_iff, String.lt_iff]

theorem Series.pairwise_codePoints (series : Series) :
    series.tags.Pairwise fun a b => Text.codePoints a < Text.codePoints b :=
  series.increasing.imp Text.codePoints_lt_iff.mpr

namespace Labels

/-! ## Labels that come about in steps -/

/-- A step from labels to labels. -/
inductive Revision where
  | name (name : String)
  | suffix (suffix : String)
  | host (host : Option String)
  | origin (origin : Option String)
  | tags (tags : Tags)
  | moreTags (tags : List Tag)
  | attributes (attributes : List Attribute)

/-- Labels that have a name only. -/
def bare (name : String) : Labels := ⟨name, ∅, none, none⟩

/-- The labels after a step. -/
def revise (labels : Labels) : Revision → Labels
  | .name name => { labels with name }
  | .suffix suffix => labels.suffixed suffix
  | .host host => { labels with host }
  | .origin origin => { labels with origin }
  | .tags tags => { labels with tags }
  | .moreTags tags => labels.tagged tags
  | .attributes attributes => labels.withAttributes attributes

/-- The labels after steps. -/
def reviseAll (labels : Labels) (revisions : List Revision) : Labels :=
  revisions.foldl revise labels

/-- What is given after a step, with repetitions. Setting the tags discards what was given. -/
def Revision.gather (given : List Tag) : Revision → List Tag
  | .name _ | .suffix _ | .host _ | .origin _ => given
  | .tags all => all.toList
  | .moreTags more => given ++ more
  | .attributes present => given ++ Resource.scalarTags present

/-- What steps give in the end, with repetitions. -/
def gathered (revisions : List Revision) : List Tag := revisions.foldl Revision.gather []

theorem mem_tags_revise {labels : Labels} {given : List Tag}
    (h : ∀ tag, tag ∈ labels.tags ↔ tag ∈ given) (revision : Revision) (tag : Tag) :
    tag ∈ (labels.revise revision).tags ↔ tag ∈ revision.gather given := by
  cases revision with
  | name | suffix | host | origin => exact h tag
  | tags tags => rfl
  | moreTags tags => rw [revise, mem_tags_tagged, h, Revision.gather, List.mem_append]
  | attributes attributes =>
    rw [revise, mem_tags_withAttributes, h, Revision.gather, List.mem_append, or_comm]

theorem mem_tags_reviseAll {labels : Labels} {given : List Tag}
    (h : ∀ tag, tag ∈ labels.tags ↔ tag ∈ given) (revisions : List Revision) (tag : Tag) :
    tag ∈ (labels.reviseAll revisions).tags ↔ tag ∈ revisions.foldl Revision.gather given := by
  induction revisions generalizing labels given with
  | nil => exact h tag
  | cons revision rest ih => exact ih (mem_tags_revise h revision)

theorem mem_tags_bare (name : String) (revisions : List Revision) (tag : Tag) :
    tag ∈ ((bare name).reviseAll revisions).tags ↔ tag ∈ gathered revisions :=
  mem_tags_reviseAll (fun _ => iff_of_false (Tags.not_mem_empty _) List.not_mem_nil) revisions tag

/-- A series is a canonical form. It is the same for the same name, host, origin and set of tags,
and its tags are in strictly increasing order of code points. Labels, in whatever steps they came
about, are of one series exactly when they have the same name, host and origin and the same tags as
sets, which is when the same tags were given on the way. -/
theorem series_is_canonical (name other : String) (tags others : List String)
    (host host' origin origin' : Option String) (revisions revisions' : List Revision) :
    (Series.of name tags host origin = Series.of other others host' origin' ↔
      name = other ∧ host = host' ∧ origin = origin' ∧ ∀ tag, tag ∈ tags ↔ tag ∈ others) ∧
    ((Series.of name tags host origin).tags.Pairwise fun a b =>
      Text.codePoints a < Text.codePoints b) ∧
    let labels := (bare name).reviseAll revisions
    let labels' := (bare other).reviseAll revisions'
    (labels.series = labels'.series ↔ labels.name = labels'.name ∧ labels.host = labels'.host ∧
      labels.origin = labels'.origin ∧ labels.tags.Same labels'.tags) ∧
    (labels.tags.Same labels'.tags ↔
      ∀ tag, tag ∈ gathered revisions ↔ tag ∈ gathered revisions') := by
  refine ⟨Series.of_eq_of_iff, Series.pairwise_codePoints _, ?_, ?_⟩
  · rw [series_eq_iff, Tags.same_iff]
  · simp only [Tags.same_iff, mem_tags_bare]

example : (Series.of "requests" ["route:/", "env:prod", "route:/"] none none).tags =
    ["env:prod", "route:/"] := by decide

end Labels

/-! ## Attributes that tell series apart -/

/-- What a value is. -/
inductive Value.Kind where
  | empty
  | text
  | flag
  | integer
  | real
  | composite
  deriving DecidableEq

/-- The kind of a value. -/
def Value.kind : Value → Kind
  | .empty => .empty
  | .text _ => .text
  | .flag _ => .flag
  | .integer _ => .integer
  | .real _ => .real
  | .composite => .composite

/-- The value is a text, a flag or an integer. -/
def Value.IsPlain (value : Value) : Prop :=
  value.kind = .text ∨ value.kind = .flag ∨ value.kind = .integer

instance (value : Value) : Decidable value.IsPlain := inferInstanceAs (Decidable (_ ∨ _))

namespace Attribute

theorem exists_scalar? {a : Attribute} (h : a.value.IsPlain) : ∃ text, a.scalar? = some text := by
  obtain ⟨key, value⟩ := a
  cases value with
  | text s => exact ⟨s, rfl⟩
  | flag b => cases b <;> exact ⟨_, rfl⟩
  | integer i => exact ⟨i.repr, rfl⟩
  | _ => simp [Value.IsPlain, Value.kind] at h

/-- Among plain values of one kind the text tells the value. -/
theorem value_eq_of_scalar?_eq {a b : Attribute} (h : a.value.IsPlain)
    (hkind : a.value.kind = b.value.kind) (hs : a.scalar? = b.scalar?) : a.value = b.value := by
  obtain ⟨key, value⟩ := a
  obtain ⟨key', value'⟩ := b
  cases value with
  | text s =>
    cases value' with
    | text t => exact congrArg Value.text (Option.some.inj hs)
    | _ => exact nomatch hkind
  | flag b =>
    cases value' with
    | flag c => cases b <;> cases c <;> simp_all [scalar?]
    | _ => exact nomatch hkind
  | integer i =>
    cases value' with
    | integer j => exact congrArg Value.integer (Decimal.eq_of_repr_eq (Option.some.inj hs))
    | _ => exact nomatch hkind
  | _ => simp [Value.IsPlain, Value.kind] at h

end Attribute

namespace Labels

/-- Attributes with distinct keys and plain values, whose keys can be read off their tags and are
no names of tags that the labels have. -/
structure Distinctive (labels : Labels) (attributes : List Attribute) : Prop where
  keys : DistinctKeys attributes
  colonless : ∀ a ∈ attributes, ':' ∉ a.key.toList
  plain : ∀ a ∈ attributes, a.value.IsPlain
  fresh : ∀ a ∈ attributes, ∀ tag ∈ labels.tags, tag.name ≠ a.key

/-- The tag of an attribute tells the attribute: its name is the key, which no tag of the labels has
for a name, and what follows is the value. -/
theorem Distinctive.subset_of_tags_subset {labels : Labels} {attributes others : List Attribute}
    (hd : labels.Distinctive attributes) (hd' : labels.Distinctive others)
    (hkind : ∀ a ∈ attributes, ∀ b ∈ others, a.key = b.key → a.value.kind = b.value.kind)
    (h : ∀ tag ∈ (labels.withAttributes attributes).tags,
      tag ∈ (labels.withAttributes others).tags) : attributes ⊆ others := by
  intro a ha
  obtain ⟨text, ht⟩ := Attribute.exists_scalar? (hd.plain a ha)
  have hname : (Tag.pair a.key text).name = a.key := Tag.name_pair (hd.colonless a ha)
  have hmem : Tag.pair a.key text ∈ Resource.scalarTags attributes :=
    Resource.mem_scalarTags.mpr ⟨a, ha, text, ht, rfl⟩
  rcases mem_tags_withAttributes.mp (h _ (mem_tags_withAttributes.mpr (.inl hmem))) with hm | hold
  · obtain ⟨b, hb, text', ht', htag⟩ := Resource.mem_scalarTags.mp hm
    have hkey : a.key = b.key := by
      rw [← hname, ← htag, Tag.name_pair (hd'.colonless b hb)]
    have htext : text' = text := Tag.pair_inj (hkey ▸ htag)
    have hvalue : a.value = b.value :=
      Attribute.value_eq_of_scalar?_eq (hd.plain a ha) (hkind a ha b hb hkey)
        (by rw [ht, ht', htext])
    have hab : a = b := by
      cases a; cases b; cases hkey; cases hvalue; rfl
    exact hab ▸ hb
  · exact absurd hname (hd.fresh a ha _ hold)

/-- Different attributes make different series: with attributes that are distinctive for the labels,
and of one kind where they have the same key, the series are equal exactly when the attributes are
permutations of each other. -/
theorem attributes_tell_series_apart {labels : Labels} {attributes others : List Attribute}
    (hd : labels.Distinctive attributes) (hd' : labels.Distinctive others)
    (hkind : ∀ a ∈ attributes, ∀ b ∈ others, a.key = b.key → a.value.kind = b.value.kind) :
    (labels.withAttributes attributes).series = (labels.withAttributes others).series ↔
      attributes.Perm others := by
  rw [series_eq_iff]
  constructor
  · rintro ⟨-, -, -, htags⟩
    have hsub := hd.subset_of_tags_subset hd' hkind fun tag => (htags tag).mp
    have hsup := hd'.subset_of_tags_subset hd
      (fun b hb a ha hkey => (hkind a ha b hb hkey.symm).symm) fun tag => (htags tag).mpr
    rw [List.perm_ext_iff_of_nodup (List.Nodup.of_map _ hd.keys) (List.Nodup.of_map _ hd'.keys)]
    exact fun a => ⟨fun h => hsub h, fun h => hsup h⟩
  · intro hp
    refine ⟨rfl, rfl, rfl, fun tag => ?_⟩
    rw [mem_tags_withAttributes, mem_tags_withAttributes, Resource.mem_scalarTags_of_perm hp]

theorem routes_tell_series_apart :
    let labels : Labels := ⟨"requests", .ofList [⟨"env:prod"⟩, ⟨"canary"⟩], some "web-1", none⟩
    let attributes : List Attribute :=
      [⟨"route", .text "a:b"⟩, ⟨"cached", .flag true⟩, ⟨"code", .integer 200⟩]
    let others : List Attribute := [⟨"route", .text "a"⟩, ⟨"code", .integer (-200)⟩]
    labels.Distinctive attributes ∧ labels.Distinctive others ∧
      (labels.withAttributes attributes).series =
        (labels.withAttributes attributes.reverse).series ∧
      (labels.withAttributes attributes).series ≠ (labels.withAttributes others).series := by
  intro labels attributes others
  have hd : labels.Distinctive attributes :=
    ⟨by unfold DistinctKeys; decide, by decide, by decide,
      show ∀ a ∈ attributes, ∀ tag ∈ labels.tags.toList, tag.name ≠ a.key by decide⟩
  have hd' : labels.Distinctive others :=
    ⟨by unfold DistinctKeys; decide, by decide, by decide,
      show ∀ a ∈ others, ∀ tag ∈ labels.tags.toList, tag.name ≠ a.key by decide⟩
  have hreverse : labels.Distinctive attributes.reverse :=
    ⟨by unfold DistinctKeys; decide, by decide, by decide, fun a ha =>
      hd.fresh a (List.mem_reverse.mp ha)⟩
  refine ⟨hd, hd', ?_, ?_⟩
  · exact (attributes_tell_series_apart hd hreverse (by decide)).mpr
      (List.reverse_perm attributes).symm
  · exact mt (attributes_tell_series_apart hd hd' (by decide)).mp (by decide)

end Labels

end MetricPoints
