import MetricPoints.Tracker

/-
  Sharded caches: the last accepted values spread over several tables by a hash of the series, so
  that visits to different series rarely meet. What concerns one series goes to its own shard;
  sizes and sweeps go over all of them. A cache, sharded or not, is asked on a clock that is set by
  hand. Main statements: what the shards find after one of them is exchanged (`known?_replace`),
  and that a visit for an extremum leaves what any visit leaves (`Shard.observeExtremum_eq`).
-/

namespace MetricPoints

variable {V : Type}

/-- One of the tables that a cache is spread over. -/
abbrev Shard (V : Type) := Table Series (Entry V)

namespace Shard

/-- Observes the value of a series in its shard, while the clock reads `now`. -/
def observe (shard : Shard V) (now : Nat) (series : Series) (time : Nat) (value : V) :
    Change V × Shard V :=
  match shard.get? series with
  | none => (.baseline, shard.put series ⟨value, time, now⟩)
  | some entry =>
    let visited := { entry with access := now }
    if time ≤ visited.time then (.late, shard.put series visited)
    else
      (.step visited.value value (time - visited.time),
        shard.put series { visited with value, time })

/-- Observes the extremum of a series in its shard and says whether it has moved. -/
def observeExtremum [Amount V] (shard : Shard V) (now : Nat) (series : Series) (time : Nat)
    (value : V) : Bool × Shard V :=
  match shard.get? series with
  | none => (false, shard.put series ⟨value, time, now⟩)
  | some entry =>
    let visited := { entry with access := now }
    if time ≤ visited.time then (false, shard.put series visited)
    else
      (Amount.differs value visited.value, shard.put series { visited with value, time })

/-- A visit is what it means to the entry of the series, which it leaves as an observation does. -/
theorem observe_eq (shard : Shard V) (now : Nat) (series : Series) (time : Nat) (value : V) :
    shard.observe now series time value =
      (Tracker.changeOf (shard.get? series) time value,
        shard.put series (Tracker.entryAfter now (shard.get? series) time value)) := by
  unfold observe Tracker.changeOf Tracker.entryAfter
  cases shard.get? series with
  | none => rfl
  | some entry =>
    by_cases h : time ≤ entry.time
    · simp only [h, if_true]
    · simp only [h, if_false]

/-- An extremum is observed as any value is; it has moved when the step goes to another value. -/
theorem observeExtremum_eq [Amount V] (shard : Shard V) (now : Nat) (series : Series)
    (time : Nat) (value : V) :
    shard.observeExtremum now series time value =
      ((shard.observe now series time value).1.moved, (shard.observe now series time value).2) := by
  unfold observeExtremum observe
  cases shard.get? series with
  | none => rfl
  | some entry =>
    by_cases h : time ≤ entry.time
    · simp only [h, if_true, Change.moved]
    · simp only [h, if_false, Change.moved]

end Shard

/-- A cache that is spread over at least one shard by a hash. -/
structure Sharded (V : Type) where
  ttl : Nat
  hash : Series → Nat
  shards : List (Shard V)
  shards_pos : 0 < shards.length

namespace Sharded

/-- A cache of so many shards that knows no series. -/
def empty (ttl : Nat) (hash : Series → Nat) {count : Nat} (h : 0 < count) : Sharded V :=
  ⟨ttl, hash, List.replicate count .empty, by rwa [List.length_replicate]⟩

/-- How many shards a cache has that is not told otherwise. -/
def usualCount : Nat := 32

/-- A cache with the usual number of shards. -/
def new (ttl : Nat) (hash : Series → Nat) : Sharded V :=
  empty ttl hash (show 0 < usualCount by decide)

/-- Where the shard of a series stands. -/
def home (sharded : Sharded V) (series : Series) : Fin sharded.shards.length :=
  ⟨sharded.hash series % sharded.shards.length, Nat.mod_lt _ sharded.shards_pos⟩

/-- The shard of a series. -/
def shard (sharded : Sharded V) (series : Series) : Shard V :=
  sharded.shards.get (sharded.home series)

/-- Exchanges the shard of a series. -/
def replace (sharded : Sharded V) (series : Series) (shard : Shard V) : Sharded V :=
  { sharded with
    shards := sharded.shards.set (sharded.home series) shard
    shards_pos := by simpa using sharded.shards_pos }

/-- What is known of a series. -/
def known? (sharded : Sharded V) (series : Series) : Option (Entry V) :=
  (sharded.shard series).get? series

/-- Observes the value of a series at a time, while the clock reads `now`. -/
def observe (sharded : Sharded V) (now : Nat) (series : Series) (time : Nat) (value : V) :
    Change V × Sharded V :=
  let (change, shard) := (sharded.shard series).observe now series time value
  (change, sharded.replace series shard)

/-- Observes the extremum of a series and says whether it has moved. -/
def observeExtremum [Amount V] (sharded : Sharded V) (now : Nat) (series : Series) (time : Nat)
    (value : V) : Bool × Sharded V :=
  let (moved, shard) := (sharded.shard series).observeExtremum now series time value
  (moved, sharded.replace series shard)

/-- Says whether a series is known. -/
def knows (sharded : Sharded V) (series : Series) : Bool :=
  (sharded.shard series).contains series

/-- The number of series, over all shards. -/
def size (sharded : Sharded V) : Nat :=
  sharded.shards.foldr (fun shard rest => shard.size + rest) 0

/-- Forgets in one shard after the other what has been idle for too long; gives how much that is,
and what is left. -/
def sweepEach (ttl now : Nat) : List (Shard V) → Nat × List (Shard V)
  | [] => (0, [])
  | shard :: rest =>
    let kept := shard.keep fun _ entry => Tracker.fresh ttl now entry
    let swept := sweepEach ttl now rest
    (shard.size - kept.size + swept.1, kept :: swept.2)

theorem snd_sweepEach (ttl now : Nat) (shards : List (Shard V)) :
    (sweepEach ttl now shards).2 =
      shards.map (Table.keep fun _ entry => Tracker.fresh ttl now entry) := by
  induction shards with
  | nil => rfl
  | cons shard rest ih =>
    rw [List.map_cons, ← ih]
    rfl

/-- Forgets every series that has been idle for too long; gives how many there were. -/
def sweep (sharded : Sharded V) (now : Nat) : Nat × Sharded V :=
  let swept := sweepEach sharded.ttl now sharded.shards
  (swept.1, { sharded with
    shards := swept.2
    shards_pos := by rw [snd_sweepEach, List.length_map]; exact sharded.shards_pos })

theorem fst_sweepEach_add (ttl now : Nat) (shards : List (Shard V)) :
    (sweepEach ttl now shards).1 +
        (sweepEach ttl now shards).2.foldr (fun shard rest => shard.size + rest) 0 =
      shards.foldr (fun shard rest => shard.size + rest) 0 := by
  induction shards with
  | nil => rfl
  | cons shard rest ih =>
    have hle := Table.size_keep_le (fun _ entry => Tracker.fresh ttl now entry) shard
    simp only [sweepEach, List.foldr_cons]
    omega

/-- A sweep gives the number of series that it takes away. -/
theorem fst_sweep_add_size (sharded : Sharded V) (now : Nat) :
    (sharded.sweep now).1 + (sharded.sweep now).2.size = sharded.size :=
  fst_sweepEach_add _ _ _

/-- The shard of a series is exchanged for all series that share it. -/
theorem shard_replace (sharded : Sharded V) (series other : Series) (shard : Shard V) :
    (sharded.replace series shard).shard other =
      if sharded.home other = sharded.home series then shard else sharded.shard other := by
  simp only [Sharded.shard, replace, home, List.get_eq_getElem, List.length_set, List.getElem_set,
    Fin.mk.injEq, eq_comm]

/-- An entry that is put into the shard of its series is found by that series only. -/
theorem known?_replace (sharded : Sharded V) (series other : Series) (entry : Entry V) :
    (sharded.replace series ((sharded.shard series).put series entry)).known? other =
      if other = series then some entry else sharded.known? other := by
  rw [known?, shard_replace]
  split
  · rename_i h
    rw [Table.get?_put, known?, Sharded.shard, Sharded.shard, h]
  · rename_i h
    rw [if_neg fun e => h (by rw [e]), known?]

@[simp] theorem length_shards_replace (sharded : Sharded V) (series : Series) (shard : Shard V) :
    (sharded.replace series shard).shards.length = sharded.shards.length := by
  simp [replace]

@[simp] theorem length_shards_sweep (sharded : Sharded V) (now : Nat) :
    (sharded.sweep now).2.shards.length = sharded.shards.length := by
  simp [sweep, snd_sweepEach]

end Sharded

/-! ## Caches on a clock -/

/-- A cache of last accepted values, however it keeps them. Visits and sweeps are told what the
clock reads; a sweep gives the number of series that it forgets. -/
class Keeper (V : outParam Type) (K : Type) where
  observe : K → Nat → Series → Nat → V → Change V × K
  observeExtremum : K → Nat → Series → Nat → V → Bool × K
  knows : K → Series → Bool
  size : K → Nat
  sweep : K → Nat → Nat × K

instance [Amount V] : Keeper V (Tracker V) where
  observe := Tracker.observe
  observeExtremum tracker now series time value :=
    let (change, tracker) := tracker.observe now series time value
    (change.moved, tracker)
  knows := Tracker.knows
  size := Tracker.size
  sweep tracker now := (tracker.expired now, tracker.sweep now)

instance [Amount V] : Keeper V (Sharded V) where
  observe := Sharded.observe
  observeExtremum := Sharded.observeExtremum
  knows := Sharded.knows
  size := Sharded.size
  sweep := Sharded.sweep

/-- What a cache can be asked. -/
inductive Query (V : Type) where
  | observe (series : Series) (time : Nat) (value : V)
  | increase (series : Series) (time : Nat) (value : V)
  | rate (series : Series) (time : Nat) (value : V)
  | extremum (series : Series) (time : Nat) (value : V)
  | knows (series : Series)
  | size
  | isEmpty
  | sweep
  | advance (nanoseconds : Nat)
  | rewind (nanoseconds : Nat)

/-- What a cache replies. -/
inductive Reply (V : Type) where
  | nothing
  | change (value : Change V)
  | amount (value : Option V)
  | flag (value : Bool)
  | count (value : Nat)
  deriving DecidableEq

/-- A cache with its clock (nanoseconds), which wraps like any 64-bit word. -/
structure Clocked (K : Type) where
  keeper : K
  clock : UInt64

namespace Clocked

variable {K : Type} [Amount V] [Keeper V K]

/-- The reading of the clock. -/
def now (clocked : Clocked K) : Nat := clocked.clock.toNat

/-- Asks one thing. -/
def ask (clocked : Clocked K) : Query V → Reply V × Clocked K
  | .observe series time value =>
    let (change, keeper) := Keeper.observe clocked.keeper clocked.now series time value
    (.change change, { clocked with keeper })
  | .increase series time value =>
    let (change, keeper) := Keeper.observe clocked.keeper clocked.now series time value
    (.amount change.increase?, { clocked with keeper })
  | .rate series time value =>
    let (change, keeper) := Keeper.observe clocked.keeper clocked.now series time value
    (.amount change.rate?, { clocked with keeper })
  | .extremum series time value =>
    let (moved, keeper) := Keeper.observeExtremum clocked.keeper clocked.now series time value
    (.flag moved, { clocked with keeper })
  | .knows series => (.flag (Keeper.knows clocked.keeper series), clocked)
  | .size => (.count (Keeper.size clocked.keeper), clocked)
  | .isEmpty => (.flag (Keeper.size clocked.keeper == 0), clocked)
  | .sweep =>
    let (forgotten, keeper) := Keeper.sweep clocked.keeper clocked.now
    (.count forgotten, { clocked with keeper })
  | .advance n => (.nothing, { clocked with clock := clocked.clock + UInt64.ofNat n })
  | .rewind n => (.nothing, { clocked with clock := clocked.clock - UInt64.ofNat n })

/-- Asks one thing after the other; gives each reply with the cache after it. -/
def askAll (clocked : Clocked K) : List (Query V) → List (Reply V × Clocked K)
  | [] => []
  | query :: rest =>
    let asked := clocked.ask query
    asked :: asked.2.askAll rest

end Clocked

end MetricPoints
