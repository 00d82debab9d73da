import Mathlib.Data.List.Nodup
import MetricPoints.Sharded

/-
  Sharding is invisible. A sharded cache spreads a tracker if every entry stands in the shard of
  its series and every series finds there what it finds in the tracker (`Spreads`). Then all shards
  together hold the entries of the tracker, in another order (`perm_entries`), so that sizes agree.
  Every query keeps the relation and gets the same reply from both (`Spreads.ask`); over a run this
  is `sharding_is_invisible`.
-/

namespace MetricPoints

variable {V : Type}

namespace Sharded

/-- All entries, shard after shard. -/
def entries (sharded : Sharded V) : List (Series × Entry V) :=
  sharded.shards.flatMap Table.toList

/-- Every entry stands in the shard of its series. -/
def Placed (sharded : Sharded V) : Prop :=
  ∀ i shard, sharded.shards[i]? = some shard → ∀ e ∈ shard.toList, (sharded.home e.1).val = i

theorem getElem?_home (sharded : Sharded V) (series : Series) :
    sharded.shards[(sharded.home series).val]? = some (sharded.shard series) :=
  List.getElem?_eq_getElem (sharded.home series).isLt

theorem home_replace (sharded : Sharded V) (series other : Series) (shard : Shard V) :
    ((sharded.replace series shard).home other).val = (sharded.home other).val := by
  simp [home, replace]

theorem home_sweep (sharded : Sharded V) (now : Nat) (series : Series) :
    ((sharded.sweep now).2.home series).val = (sharded.home series).val := by
  simp [home, sweep, snd_sweepEach]

namespace Placed

variable {sharded : Sharded V}

theorem shard_eq (h : sharded.Placed) {i : Nat} {shard : Shard V}
    (hi : sharded.shards[i]? = some shard) {e : Series × Entry V} (he : e ∈ shard.toList) :
    sharded.shard e.1 = shard := by
  have hs := sharded.getElem?_home e.1
  rw [h i shard hi e he, hi, Option.some_inj] at hs
  exact hs.symm

theorem mem_entries_iff (h : sharded.Placed) {series : Series} {entry : Entry V} :
    (series, entry) ∈ sharded.entries ↔ sharded.known? series = some entry := by
  rw [entries, List.mem_flatMap, known?, ← Table.mem_iff_get?]
  constructor
  · rintro ⟨shard, hs, he⟩
    obtain ⟨i, hi⟩ := List.mem_iff_getElem?.mp hs
    rwa [← h.shard_eq hi he] at he
  · intro he
    exact ⟨_, List.get_mem _ _, he⟩

/-- No series is held twice, neither in one shard nor in two. -/
theorem nodup_keys (h : sharded.Placed) : (sharded.entries.map Prod.fst).Nodup := by
  rw [entries, List.map_flatMap, List.nodup_flatMap]
  refine ⟨fun shard _ => shard.nodup, List.pairwise_iff_getElem.mpr ?_⟩
  intro i j hi hj hij series hmi hmj
  obtain ⟨e, he, rfl⟩ := List.mem_map.mp hmi
  obtain ⟨f, hf, hs⟩ := List.mem_map.mp hmj
  have hi' := h i _ (List.getElem?_eq_getElem hi) e he
  have hj' := h j _ (List.getElem?_eq_getElem hj) f hf
  rw [hs, hi'] at hj'
  exact Nat.ne_of_lt hij hj'

/-- An entry that is put into the shard of its series is placed. -/
theorem replace (h : sharded.Placed) (series : Series) (entry : Entry V) :
    (sharded.replace series ((sharded.shard series).put series entry)).Placed := by
  intro i shard hi e he
  rw [home_replace]
  simp only [Sharded.replace, List.getElem?_set] at hi
  split at hi
  · rename_i hs
    rw [if_pos (sharded.home series).isLt, Option.some_inj] at hi
    subst hi
    -- in the shard that was exchanged stands what was put and what stood there before
    rcases Table.mem_keys_putIn.mp (List.mem_map_of_mem (f := Prod.fst) he) with hk | hk
    · rw [hk, hs]
    · obtain ⟨f, hf, hfe⟩ := List.mem_map.mp hk
      rw [← hs, ← hfe, h _ _ (sharded.getElem?_home series) f hf]
  · exact h i shard hi e he

theorem sweep (h : sharded.Placed) (now : Nat) : (sharded.sweep now).2.Placed := by
  intro i kept hi e he
  simp only [Sharded.sweep, snd_sweepEach, List.getElem?_map, Option.map_eq_some_iff] at hi
  obtain ⟨shard, hs, rfl⟩ := hi
  rw [home_sweep]
  exact h i shard hs e (List.mem_of_mem_filter he)

end Placed

theorem placed_empty (ttl : Nat) (hash : Series → Nat) {count : Nat} (h : 0 < count) :
    (empty ttl hash h : Sharded V).Placed := by
  intro i shard hi e he
  have hnil := (List.mem_replicate.mp (List.mem_of_getElem? hi)).2
  rw [hnil] at he
  exact absurd he List.not_mem_nil

theorem known?_empty (ttl : Nat) (hash : Series → Nat) {count : Nat} (h : 0 < count)
    (series : Series) : (empty ttl hash h : Sharded V).known? series = none := by
  have hs : (empty ttl hash h : Sharded V).shard series = .empty :=
    (List.mem_replicate.mp (List.get_mem _ _)).2
  rw [known?, hs, Table.get?_empty]

theorem known?_sweep (sharded : Sharded V) (now : Nat) (series : Series) :
    (sharded.sweep now).2.known? series =
      (sharded.known? series).filter (Tracker.fresh sharded.ttl now) := by
  have hs : (sharded.sweep now).2.shard series =
      (sharded.shard series).keep fun _ entry => Tracker.fresh sharded.ttl now entry := by
    simp [shard, home, sweep, snd_sweepEach]
  rw [known?, hs, Table.get?_keep, known?]

end Sharded

/-- The sharded cache holds what the tracker holds, every series in the one of the `count` shards
that `hash` chooses. -/
structure Spreads (hash : Series → Nat) (count : Nat) (sharded : Sharded V) (tracker : Tracker V) :
    Prop where
  ttl : sharded.ttl = tracker.ttl
  hash_eq : sharded.hash = hash
  length_eq : sharded.shards.length = count
  placed : sharded.Placed
  known : ∀ series, sharded.known? series = tracker.entries.get? series

namespace Spreads

variable {hash : Series → Nat} {count : Nat} {sharded : Sharded V} {tracker : Tracker V}

theorem empty (ttl : Nat) (hash : Series → Nat) {count : Nat} (h : 0 < count) :
    Spreads hash count (Sharded.empty ttl hash h : Sharded V) (.empty ttl) where
  ttl := rfl
  hash_eq := rfl
  length_eq := List.length_replicate
  placed := Sharded.placed_empty ttl hash h
  known series := Sharded.known?_empty ttl hash h series

/-- The shards together hold the entries of the tracker. -/
theorem perm_entries (h : Spreads hash count sharded tracker) :
    sharded.entries.Perm tracker.entries.toList := by
  rw [List.perm_ext_iff_of_nodup (List.Nodup.of_map _ h.placed.nodup_keys)
    (List.Nodup.of_map _ tracker.entries.nodup)]
  rintro ⟨series, entry⟩
  rw [h.placed.mem_entries_iff, h.known, Table.mem_iff_get?]

theorem size (h : Spreads hash count sharded tracker) : sharded.size = tracker.size := by
  rw [Tracker.size, Table.size, ← h.perm_entries.length_eq, Sharded.entries, List.length_flatMap,
    List.sum, List.foldr_map]
  rfl

theorem knows (h : Spreads hash count sharded tracker) (series : Series) :
    sharded.knows series = tracker.knows series :=
  congrArg Option.isSome (h.known series)

/-- An observation means the same to both. -/
theorem fst_observe (h : Spreads hash count sharded tracker) (now : Nat) (series : Series)
    (time : Nat) (value : V) :
    (sharded.observe now series time value).1 = (tracker.observe now series time value).1 := by
  rw [Sharded.observe, Shard.observe_eq, Tracker.fst_observe, ← h.known]
  rfl

theorem observe (h : Spreads hash count sharded tracker) (now : Nat) (series : Series) (time : Nat)
    (value : V) :
    Spreads hash count (sharded.observe now series time value).2
      (tracker.observe now series time value).2 := by
  rw [Sharded.observe, Shard.observe_eq]
  refine ⟨h.ttl, h.hash_eq, ?_, h.placed.replace series _, fun other => ?_⟩
  · rw [Sharded.length_shards_replace, h.length_eq]
  · rw [Sharded.known?_replace, Tracker.get?_observe, ← h.known, ← h.known]
    rfl

theorem sweep (h : Spreads hash count sharded tracker) (now : Nat) :
    Spreads hash count (sharded.sweep now).2 (tracker.sweep now) := by
  refine ⟨h.ttl, h.hash_eq, ?_, h.placed.sweep now, fun series => ?_⟩
  · rw [Sharded.length_shards_sweep, h.length_eq]
  · rw [Sharded.known?_sweep, Tracker.get?_sweep, h.known, h.ttl]

/-- Both forget the same number of series. -/
theorem fst_sweep (h : Spreads hash count sharded tracker) (now : Nat) :
    (sharded.sweep now).1 = tracker.expired now := by
  have hshards := sharded.fst_sweep_add_size now
  have htracker := tracker.size_sweep_add_expired now
  have hbefore := h.size
  have hafter := (h.sweep now).size
  omega

end Spreads

variable [Amount V]

/-- An extremum is observed as any value is; it has moved when the step goes to another value. -/
theorem Sharded.observeExtremum_eq (sharded : Sharded V) (now : Nat) (series : Series)
    (time : Nat) (value : V) :
    sharded.observeExtremum now series time value =
      ((sharded.observe now series time value).1.moved,
        (sharded.observe now series time value).2) := by
  rw [Sharded.observeExtremum, Shard.observeExtremum_eq]
  rfl

namespace Clocked

/-- A sharded cache and a tracker on clocks that read the same, with the same entries. -/
structure Agree (hash : Series → Nat) (count : Nat) (sharded : Clocked (Sharded V))
    (plain : Clocked (Tracker V)) : Prop where
  clock : sharded.clock = plain.clock
  spreads : Spreads hash count sharded.keeper plain.keeper

variable {hash : Series → Nat} {count : Nat}

/-- To one query both caches give the same reply, and then they still agree. -/
theorem Agree.ask {sharded : Clocked (Sharded V)} {plain : Clocked (Tracker V)}
    (h : Agree hash count sharded plain) (query : Query V) :
    (sharded.ask query).1 = (plain.ask query).1 ∧
      Agree hash count (sharded.ask query).2 (plain.ask query).2 := by
  obtain ⟨sharded, clock⟩ := sharded
  obtain ⟨tracker, _⟩ := plain
  obtain ⟨rfl, h⟩ := h
  have hchange := h.fst_observe clock.toNat
  have hnext (series : Series) (time : Nat) (value : V) :
      Agree hash count ⟨(sharded.observe clock.toNat series time value).2, clock⟩
        ⟨(tracker.observe clock.toNat series time value).2, clock⟩ :=
    ⟨rfl, h.observe clock.toNat series time value⟩
  cases query with
  | observe series time value =>
    exact ⟨congrArg Reply.change (hchange series time value), hnext series time value⟩
  | increase series time value =>
    refine ⟨?_, hnext series time value⟩
    exact congrArg (fun change : Change V => Reply.amount change.increase?)
      (hchange series time value)
  | rate series time value =>
    refine ⟨?_, hnext series time value⟩
    exact congrArg (fun change : Change V => Reply.amount change.rate?) (hchange series time value)
  | extremum series time value =>
    have hvisit : (⟨sharded, clock⟩ : Clocked (Sharded V)).ask (.extremum series time value) =
        (.flag (sharded.observe clock.toNat series time value).1.moved,
          ⟨(sharded.observe clock.toNat series time value).2, clock⟩) := by
      rw [Clocked.ask]
      exact congrArg
        (fun visit : Bool × Sharded V => (Reply.flag visit.1, Clocked.mk visit.2 clock))
        (sharded.observeExtremum_eq clock.toNat series time value)
    rw [hvisit]
    refine ⟨?_, hnext series time value⟩
    exact congrArg (fun change : Change V => Reply.flag change.moved) (hchange series time value)
  | knows series => exact ⟨congrArg Reply.flag (h.knows series), rfl, h⟩
  | size => exact ⟨congrArg Reply.count h.size, rfl, h⟩
  | isEmpty => exact ⟨congrArg (fun size => Reply.flag (size == 0)) h.size, rfl, h⟩
  | sweep => exact ⟨congrArg Reply.count (h.fst_sweep clock.toNat), rfl, h.sweep clock.toNat⟩
  | advance n => exact ⟨rfl, rfl, h⟩
  | rewind n => exact ⟨rfl, rfl, h⟩

/-- Over a run of queries both caches reply alike and agree all along. -/
theorem Agree.askAll {sharded : Clocked (Sharded V)} {plain : Clocked (Tracker V)}
    (h : Agree hash count sharded plain) (queries : List (Query V)) :
    List.Forall₂ (fun asked other => asked.1 = other.1 ∧ Agree hash count asked.2 other.2)
      (sharded.askAll queries) (plain.askAll queries) := by
  induction queries generalizing sharded plain with
  | nil => exact .nil
  | cons query rest ih =>
    have hask := h.ask query
    exact .cons hask (ih hask.2)

end Clocked

/-- However a hash spreads the series, and over however many shards, the cache replies to every
query of a run what a single table replies. Before and after each query no series is held twice, be
it in one shard or in two, and each stands in the shard that its hash chooses. -/
theorem sharding_is_invisible (ttl : Nat) (hash : Series → Nat) {count : Nat} (h : 0 < count)
    (clock : UInt64) (queries : List (Query V)) :
    let start : Clocked (Sharded V) := ⟨.empty ttl hash h, clock⟩
    let single : Clocked (Tracker V) := ⟨.empty ttl, clock⟩
    (start.askAll queries).map Prod.fst = (single.askAll queries).map Prod.fst ∧
      ∀ state ∈ start :: (start.askAll queries).map Prod.snd,
        let shards := state.keeper.shards
        shards.length = count ∧ (shards.flatMap fun shard => shard.toList.map Prod.fst).Nodup ∧
          ∀ i shard, shards[i]? = some shard → ∀ series, shard.contains series = true →
            i = hash series % count := by
  intro start single
  have hstart : Clocked.Agree hash count start single := ⟨rfl, Spreads.empty ttl hash h⟩
  have hrun := hstart.askAll queries
  refine ⟨?_, fun state hs => ?_⟩
  · rw [← List.forall₂_eq_eq_eq, List.forall₂_map_left_iff, List.forall₂_map_right_iff]
    exact hrun.imp fun _ _ hasked => hasked.1
  · have hall : ∀ asked ∈ start.askAll queries,
        ∃ tracker, Spreads hash count asked.2.keeper tracker :=
      ((List.forall₂_and_left _ _).mp (hrun.imp fun _ other hasked =>
        ⟨⟨other.2.keeper, hasked.2.spreads⟩, hasked⟩)).1
    have hspreads : ∃ tracker, Spreads hash count state.keeper tracker := by
      rcases List.mem_cons.mp hs with rfl | hs
      · exact ⟨_, hstart.spreads⟩
      · obtain ⟨asked, ha, rfl⟩ := List.mem_map.mp hs
        exact hall asked ha
    obtain ⟨tracker, hspreads⟩ := hspreads
    refine ⟨hspreads.length_eq, ?_, fun i shard hi series hc => ?_⟩
    · rw [← List.map_flatMap]
      exact hspreads.placed.nodup_keys
    · obtain ⟨e, he, rfl⟩ := List.mem_map.mp (Table.contains_iff_mem_keys.mp hc)
      rw [← hspreads.placed i shard hi e he, Sharded.home, ← hspreads.hash_eq, ← hspreads.length_eq]

/-- Visits to two series, with sweeps of which the last one forgets one of them. -/
def visitsToTwo (first second : Series) : List (Query Rat) :=
  [.observe first 1 5, .extremum second 1 2, .size, .advance 40, .observe first 3 4,
    .extremum second 1 9, .advance 40, .rate second 1000000001 6, .sweep, .knows first,
    .advance 30, .sweep, .knows first, .size, .isEmpty]

theorem sharding_is_invisible_in_one_shard :
    let first := Series.of "requests" [] none none
    let second := Series.of "errors" [] none none
    let start : Clocked (Sharded Rat) := ⟨.empty 60 (fun _ => 5) (show 0 < 3 by decide), 0⟩
    (start.askAll (visitsToTwo first second)).map Prod.fst =
      [.change .baseline, .flag false, .count 2, .nothing, .change (.step 5 4 2), .flag false,
        .nothing, .amount (some 4), .count 0, .flag true, .nothing, .count 1, .flag false,
        .count 1, .flag false] := by
  intro first second start
  have h :=
    sharding_is_invisible 60 (fun _ => 5) (show 0 < 3 by decide) 0 (visitsToTwo first second)
  exact h.1.trans (by decide +kernel)

end MetricPoints
