import MetricPoints.Proofs.Containers
import MetricPoints.Proofs.Labelled

/-
  How the attributes of a resource describe it by tags. There is one rule for each kind of
  attribute, and a tag belongs to the resource exactly when a rule gives it (`Resource.Described`).
  No rule is hidden by another one: the keys of processes and of the operating system are passed
  over where conventions are looked up, but no convention names them
  (`Convention.not_names_of_special`).

  Main statement: `Resource.tags_are_described`.
-/

namespace MetricPoints

namespace Convention

/-- The conventions, containers apart, name the tag of a key. -/
inductive Names : String → String → Prop where
  | service {key name : String} (h : (key, name) ∈ service) : Names key name
  | kubernetes {key name : String} (h : (key, name) ∈ kubernetesLabels) : Names key name
  | label {name : String} (h : name ≠ "") : Names (labelStart ++ name) name
  | known {key : String} (h : key ∈ tagNames) : Names key key

theorem service_keys_nodup : (service.map Prod.fst).Nodup := by decide

theorem kubernetesLabels_keys_nodup : (kubernetesLabels.map Prod.fst).Nodup := by decide

theorem name_ne_empty_of_names {key name : String} (h : Names key name) : name ≠ "" := by
  have hservice : ∀ e ∈ service, e.2 ≠ "" := by decide
  have hlabels : ∀ e ∈ kubernetesLabels, e.2 ≠ "" := by decide
  have hknown : ∀ key ∈ tagNames, key ≠ "" := by decide
  cases h with
  | service h => exact hservice _ h
  | kubernetes h => exact hlabels _ h
  | label h => exact h
  | known h => exact hknown _ h

/-- No convention names the keys that have a rule of their own. -/
theorem not_names_of_special {key name : String} (hkey : key ∈ operatingSystem :: process) :
    ¬ Names key name := by
  have hservice : ∀ e ∈ service, e.1 ∉ operatingSystem :: process := by decide
  have hlabels : ∀ e ∈ kubernetesLabels, e.1 ∉ operatingSystem :: process := by decide
  have hlabel : ∀ key ∈ operatingSystem :: process, Text.rest? labelStart key = none := by decide
  have hknown : ∀ key ∈ tagNames, key ∉ operatingSystem :: process := by decide +kernel
  intro h
  cases h with
  | service h => exact hservice _ h hkey
  | kubernetes h => exact hlabels _ h hkey
  | label =>
    have hnone := hlabel _ hkey
    rw [Text.rest?_eq_some_iff.mpr rfl] at hnone
    exact nomatch hnone
  | known h => exact hknown _ h hkey

end Convention

namespace Resource

/-- The rules that give a resource its tags. -/
inductive Described (attributes : List Attribute) : Tag → Prop where
  /-- The process, by the first of its keys whose last text is not empty. -/
  | process {before after : List String} {key value : String}
    (hkey : Convention.process = before ++ key :: after)
    (hvalue : (textsOf attributes key).getLast? = some value) (hfilled : value ≠ "")
    (hbefore : ∀ other ∈ before, ∀ text, (textsOf attributes other).getLast? = some text →
      text = "") : Described attributes (.pair key value)
  | operatingSystem {value : String}
    (hvalue : value ∈ filledTexts (· = Convention.operatingSystem) attributes) :
    Described attributes (.pair Convention.operatingSystem value)
  | convention {key name value : String} (hname : Convention.Names key name)
    (hvalue : value ∈ filledTexts (· = key) attributes) : Described attributes (.pair name value)
  | container {name value : String}
    (hvalue : value ∈ Container.conventionalTexts attributes name) :
    Described attributes (.pair name value)
  /-- What the attributes name themselves, unless a conventional attribute has taken the name. -/
  | custom {name value : String} (hfree : Container.conventionalTexts attributes name = [])
    (hvalue : (Container.customTexts attributes name).head? = some value) :
    Described attributes (.pair name value)

/-! ## Attributes one by one -/

theorem mem_conventionTags {tag : Tag} {key value : String} :
    tag ∈ conventionTags key value ↔
      ∃ name, Convention.Names key name ∧ tag = .pair name value := by
  have hnames (name : String) :
      name ∈ (Convention.service.lookup key).toList ++
          (Convention.kubernetesLabels.lookup key).toList ++
          ((Text.rest? Convention.labelStart key).filter (· ≠ "")).toList ++
          (if key ∈ Convention.tagNames then [key] else []) ↔ Convention.Names key name := by
    simp only [List.mem_append, Option.mem_toList, Option.filter_eq_some_iff,
      lookup_eq_some_iff_mem Convention.service_keys_nodup,
      lookup_eq_some_iff_mem Convention.kubernetesLabels_keys_nodup, Text.rest?_eq_some_iff,
      decide_eq_true_iff]
    constructor
    · rintro (((h | h) | ⟨rfl, h⟩) | h)
      · exact .service h
      · exact .kubernetes h
      · exact .label h
      · split at h
        · rw [List.mem_singleton.mp h]
          exact .known ‹_›
        · exact absurd h List.not_mem_nil
    · intro h
      cases h with
      | service h => exact .inl (.inl (.inl h))
      | kubernetes h => exact .inl (.inl (.inr h))
      | label h => exact .inl (.inr ⟨rfl, h⟩)
      | known h => exact .inr (by simp [h])
  simp only [conventionTags, List.mem_map, hnames, eq_comm]

theorem mem_attributeTags {tag : Tag} {a : Attribute} :
    tag ∈ attributeTags a ↔ ∃ value, a.filledText? = some value ∧
      (a.key = Convention.operatingSystem ∧ tag = .pair Convention.operatingSystem value ∨
        ∃ name, Convention.Names a.key name ∧ tag = .pair name value) := by
  unfold attributeTags
  cases a.filledText? with
  | none => simp
  | some value =>
    have hother : Convention.operatingSystem ∉ Convention.process := by decide
    simp only [Option.some.injEq, exists_eq_left']
    by_cases hp : a.key ∈ Convention.process
    · have hnames (name : String) : ¬ Convention.Names a.key name :=
        Convention.not_names_of_special (List.mem_cons_of_mem _ hp)
      have hkey : a.key ≠ Convention.operatingSystem := fun e => hother (e ▸ hp)
      simp [hp, hnames, hkey]
    · by_cases hkey : a.key = Convention.operatingSystem
      · have hnames (name : String) : ¬ Convention.Names Convention.operatingSystem name :=
          Convention.not_names_of_special List.mem_cons_self
        simp [hkey, hother, hnames]
      · simp [hp, hkey, mem_conventionTags]

theorem processTag?_eq_some_iff {attributes : List Attribute} {tag : Tag} :
    processTag? attributes = some tag ↔ ∃ before key after value,
      Convention.process = before ++ key :: after ∧
      (textsOf attributes key).getLast? = some value ∧ value ≠ "" ∧
      (∀ other ∈ before, ∀ text, (textsOf attributes other).getLast? = some text → text = "") ∧
      .pair key value = tag := by
  have hnone (key : String) :
      ((lastText? attributes key).filter (· ≠ "")).map (Tag.pair key) = none ↔
        ∀ text, (textsOf attributes key).getLast? = some text → text = "" := by
    rw [lastText?, filterMap_text?_eq_textsOf, Option.map_eq_none_iff, Option.filter_eq_none_iff]
    simp
  have hsome (key : String) :
      ((lastText? attributes key).filter (· ≠ "")).map (Tag.pair key) = some tag ↔
        ∃ value, (textsOf attributes key).getLast? = some value ∧ value ≠ "" ∧
          .pair key value = tag := by
    simp only [lastText?, filterMap_text?_eq_textsOf, Option.map_eq_some_iff,
      Option.filter_eq_some_iff, decide_eq_true_iff, and_assoc]
  rw [processTag?, List.findSome?_eq_some_iff]
  simp only [hnone, hsome]
  constructor
  · rintro ⟨before, key, after, hkey, ⟨value, hvalue, hfilled, htag⟩, hbefore⟩
    exact ⟨before, key, after, value, hkey, hvalue, hfilled, hbefore, htag⟩
  · rintro ⟨before, key, after, value, hkey, hvalue, hfilled, hbefore, htag⟩
    exact ⟨before, key, after, hkey, ⟨value, hvalue, hfilled, htag⟩, hbefore⟩

/-- A tag belongs to a resource exactly when one of the rules gives it. -/
theorem mem_tags_iff_described {attributes : List Attribute} {tag : Tag} :
    tag ∈ tags attributes ↔ Described attributes tag := by
  rw [mem_tags]
  constructor
  · rintro (⟨a, ha, hm⟩ | hp | ⟨⟨name, value⟩, he, rfl⟩)
    · obtain ⟨value, hvalue, ⟨hkey, rfl⟩ | ⟨name, hname, rfl⟩⟩ := mem_attributeTags.mp hm
      · exact .operatingSystem (mem_filledTexts.mpr ⟨a, ha, decide_eq_true hkey, hvalue⟩)
      · exact .convention hname (mem_filledTexts.mpr ⟨a, ha, decide_eq_true rfl, hvalue⟩)
    · obtain ⟨before, key, after, value, hkey, hvalue, hfilled, hbefore, rfl⟩ :=
        processTag?_eq_some_iff.mp hp
      exact .process hkey hvalue hfilled hbefore
    · obtain hvalue | ⟨hfree, hvalue⟩ := Container.mem_pairs_iff.mp he
      · exact .container hvalue
      · exact .custom hfree hvalue
  · intro h
    cases h with
    | process hkey hvalue hfilled hbefore =>
      exact .inr (.inl (processTag?_eq_some_iff.mpr
        ⟨_, _, _, _, hkey, hvalue, hfilled, hbefore, rfl⟩))
    | operatingSystem hvalue =>
      obtain ⟨a, ha, hkey, htext⟩ := mem_filledTexts.mp hvalue
      exact .inl ⟨a, ha, mem_attributeTags.mpr
        ⟨_, htext, .inl ⟨of_decide_eq_true hkey, rfl⟩⟩⟩
    | convention hname hvalue =>
      obtain ⟨a, ha, hkey, htext⟩ := mem_filledTexts.mp hvalue
      obtain rfl := of_decide_eq_true hkey
      exact .inl ⟨a, ha, mem_attributeTags.mpr ⟨_, htext, .inr ⟨_, hname, rfl⟩⟩⟩
    | container hvalue =>
      exact .inr (.inr ⟨_, Container.mem_pairs_iff.mpr (.inl hvalue), rfl⟩)
    | custom hfree hvalue =>
      exact .inr (.inr ⟨_, Container.mem_pairs_iff.mpr (.inr ⟨hfree, hvalue⟩), rfl⟩)

/-- No rule gives an empty name or an empty value. -/
theorem Described.exists_pair {attributes : List Attribute} {tag : Tag}
    (h : Described attributes tag) :
    ∃ key value, key ≠ "" ∧ value ≠ "" ∧ tag = .pair key value := by
  have hprocess : ∀ key ∈ Convention.process, key ≠ "" := by decide
  have hcontainer : ∀ e ∈ Convention.container, e.2 ≠ "" := by decide
  cases h with
  | @process before after key value hkey _ hfilled _ =>
    have hmem : key ∈ Convention.process :=
      hkey ▸ List.mem_append_right before List.mem_cons_self
    exact ⟨_, _, hprocess key hmem, hfilled, rfl⟩
  | operatingSystem hvalue => exact ⟨_, _, by decide, ne_empty_of_mem_filledTexts hvalue, rfl⟩
  | convention hname hvalue =>
    exact ⟨_, _, Convention.name_ne_empty_of_names hname, ne_empty_of_mem_filledTexts hvalue, rfl⟩
  | container hvalue =>
    obtain ⟨a, -, hkey, -⟩ := mem_filledTexts.mp hvalue
    exact ⟨_, _, hcontainer _ (of_decide_eq_true hkey), ne_empty_of_mem_filledTexts hvalue, rfl⟩
  | custom _ hvalue =>
    have hmem := List.mem_of_head? hvalue
    obtain ⟨a, -, hkey, -⟩ := mem_filledTexts.mp hmem
    exact ⟨_, _, (of_decide_eq_true hkey).1, ne_empty_of_mem_filledTexts hmem, rfl⟩

/-- The tags of a resource are exactly those that the rules give it, none of them twice, and each
is made of a key and a value that are not empty. -/
theorem tags_are_described (attributes : List Attribute) :
    (tags attributes).toList.Nodup ∧
      (∀ tag ∈ tags attributes, ∃ key value, key ≠ "" ∧ value ≠ "" ∧ tag = .pair key value) ∧
      ∀ tag, tag ∈ tags attributes ↔ Described attributes tag :=
  ⟨(tags attributes).nodup, fun _ h => (mem_tags_iff_described.mp h).exists_pair,
    fun _ => mem_tags_iff_described⟩

theorem worker_is_described :
    let attributes : List Attribute := [⟨"process.executable.name", .text "worker"⟩,
      ⟨"process.executable.name", .text ""⟩, ⟨"process.command", .text "run"⟩,
      ⟨"process.command", .integer 1⟩, ⟨"os.type", .text "linux"⟩, ⟨"env", .text ""⟩,
      ⟨"tags.datadoghq.com/team", .text "core"⟩, ⟨"datadog.container.tag.rack", .text "r1"⟩,
      ⟨"datadog.container.tag.rack", .text "r2"⟩, ⟨"datadog.container.tag.zone", .text "z1"⟩,
      ⟨"cloud.availability_zone", .text "z2"⟩, ⟨"cloud.availability_zone", .text "z3"⟩]
    (tags attributes).toList = [.pair "os.type" "linux", .pair "team" "core",
        .pair "process.command" "run", .pair "zone" "z2", .pair "zone" "z3", .pair "rack" "r1"] ∧
      Described attributes (.pair "rack" "r1") ∧ ¬ Described attributes (.pair "rack" "r2") ∧
      ¬ Described attributes (.pair "zone" "z1") ∧
      ∃ key value, key ≠ "" ∧ value ≠ "" ∧ Tag.pair "zone" "z3" = .pair key value := by
  intro attributes
  have htags : (tags attributes).toList = [.pair "os.type" "linux", .pair "team" "core",
      .pair "process.command" "run", .pair "zone" "z2", .pair "zone" "z3",
      .pair "rack" "r1"] := by decide +kernel
  obtain ⟨-, hfilled, hdescribed⟩ := tags_are_described attributes
  simp only [Tags.mem_def, htags] at hfilled hdescribed
  exact ⟨htags, (hdescribed _).mp (by decide), mt (hdescribed _).mpr (by decide),
    mt (hdescribed _).mpr (by decide), hfilled _ (by decide)⟩

end Resource

end MetricPoints
