import MetricPoints.Proofs.Binary64.Seconds
import MetricPoints.Proofs.Residence
import MetricPoints.Proofs.Sharding

/-
  The three ways of visiting a series: for its increase, for its rate and for whether its extremum
  has moved. All of them take a sharded cache to one and the same state (`Query.SameVisit.snd_ask`),
  so that in a run one may stand for another. What each replies is read off what a station keeps
  that is asked the same (`Clocked.station`): all three go by the record of the residence.

  Main statement: `ways_of_visiting_agree`.
-/

namespace MetricPoints

variable {V : Type}

/-! ## One way for another -/

/-- The ways of visiting a series. -/
inductive Way where
  | increase
  | rate
  | extremum
  deriving DecidableEq, Repr

/-- A visit in one of the ways. -/
def Way.query (way : Way) (series : Series) (time : Nat) (value : V) : Query V :=
  match way with
  | .increase => .increase series time value
  | .rate => .rate series time value
  | .extremum => .extremum series time value

/-- Two queries are one, or they visit a series at one time and with one value, each in its way. -/
inductive Query.SameVisit : Query V → Query V → Prop where
  | refl (query : Query V) : SameVisit query query
  | visit (way other : Way) (series : Series) (time : Nat) (value : V) :
    SameVisit (way.query series time value) (other.query series time value)

variable [Amount V]

/-- Whichever the way, a visit leaves what an observation leaves. -/
theorem Way.snd_ask (way : Way) (clocked : Clocked (Sharded V)) (series : Series) (time : Nat)
    (value : V) :
    (clocked.ask (way.query series time value)).2 =
      { clocked with keeper := (clocked.keeper.observe clocked.now series time value).2 } := by
  cases way with
  | increase => rfl
  | rate => rfl
  | extremum =>
    have he := clocked.keeper.observeExtremum_eq clocked.now series time value
    exact congrArg (fun visit : Bool × Sharded V => { clocked with keeper := visit.2 }) he

theorem Query.SameVisit.snd_ask {query other : Query V} (h : SameVisit query other)
    (clocked : Clocked (Sharded V)) : (clocked.ask query).2 = (clocked.ask other).2 := by
  cases h with
  | refl => rfl
  | visit way other series time value => rw [way.snd_ask, other.snd_ask]

namespace Clocked

/-- In a run one way may stand for another: the cache goes through the same states. -/
theorem map_snd_askAll {queries others : List (Query V)}
    (h : List.Forall₂ Query.SameVisit queries others) (clocked : Clocked (Sharded V)) :
    (clocked.askAll queries).map Prod.snd = (clocked.askAll others).map Prod.snd := by
  induction h generalizing clocked with
  | nil => rfl
  | cons hsame _ ih =>
    rw [askAll, askAll, List.map_cons, List.map_cons, hsame.snd_ask clocked, ih]

/-- What is asked as before is replied as before. -/
theorem getElem?_askAll {queries others : List (Query V)}
    (h : List.Forall₂ Query.SameVisit queries others) (clocked : Clocked (Sharded V)) (i : Nat)
    (hi : queries[i]? = others[i]?) :
    (clocked.askAll queries)[i]? = (clocked.askAll others)[i]? := by
  induction h generalizing clocked i with
  | nil => rfl
  | cons hsame _ ih =>
    rw [askAll, askAll]
    cases i with
    | zero =>
      rw [List.getElem?_cons_zero, List.getElem?_cons_zero, Option.some_inj] at hi
      rw [List.getElem?_cons_zero, List.getElem?_cons_zero, hi]
    | succ i =>
      rw [List.getElem?_cons_succ, List.getElem?_cons_succ] at hi
      rw [List.getElem?_cons_succ, List.getElem?_cons_succ, hsame.snd_ask clocked]
      exact ih _ i hi

/-! ## What a visit replies -/

/-- The cache after a run of queries. -/
def after {K : Type} [Keeper V K] (clocked : Clocked K) (queries : List (Query V)) : Clocked K :=
  queries.foldl (fun clocked query => (clocked.ask query).2) clocked

end Clocked

/-- What a station does that is asked a query. -/
def Query.action : Query V → Action V
  | .observe series time value | .increase series time value => .increase series time value
  | .rate series time value => .rate series time value
  | .extremum series time value => .moved series time value
  | .knows series => .knows series
  | .size => .size
  | .isEmpty => .isEmpty
  | .sweep => .sweep
  | .advance n => .advance n
  | .rewind n => .rewind n

namespace Clocked

/-- A station with the tracker and the clock, and without a sweeper. -/
def station (plain : Clocked (Tracker V)) : Station V := ⟨plain.keeper, plain.clock, 0, 0, none⟩

theorem station_ask (plain : Clocked (Tracker V)) (query : Query V) :
    (plain.ask query).2.station = (plain.station.act query.action).2 := by
  cases query <;> rfl

theorem station_after (plain : Clocked (Tracker V)) (queries : List (Query V)) :
    (plain.after queries).station = plain.station.after (queries.map Query.action) := by
  induction queries generalizing plain with
  | nil => rfl
  | cons query rest ih =>
    rw [after, List.foldl_cons, ← after, ih, station_ask, List.map_cons, Station.after_cons]

theorem Agree.after {hash : Series → Nat} {count : Nat} {sharded : Clocked (Sharded V)}
    {plain : Clocked (Tracker V)} (h : Agree hash count sharded plain) (queries : List (Query V)) :
    Agree hash count (sharded.after queries) (plain.after queries) := by
  induction queries generalizing sharded plain with
  | nil => exact h
  | cons query rest ih => exact ih (h.ask query).2

end Clocked

/-- The three ways reply what one observation means to what is known of the series. -/
theorem Clocked.Agree.visits {hash : Series → Nat} {count : Nat} {sharded : Clocked (Sharded V)}
    {plain : Clocked (Tracker V)} (h : Agree hash count sharded plain) (series : Series)
    (time : Nat) (value : V) :
    let change := Tracker.changeOf (plain.station.known? series) time value
    (sharded.ask (.increase series time value)).1 = .amount change.increase? ∧
      (sharded.ask (.rate series time value)).1 = .amount change.rate? ∧
      (sharded.ask (.extremum series time value)).1 = .flag change.moved :=
  ⟨(h.ask _).1, (h.ask _).1, (h.ask _).1⟩

theorem Change.isSome_rate? (change : Change V) :
    change.rate?.isSome = change.increase?.isSome := by
  cases change with
  | baseline => rfl
  | late => rfl
  | step previous current elapsed => rfl

/-- What a visit replies goes by the record of what is held: there is an increase exactly when the
visit is newer, and then the value has moved exactly when it differs from the record's. -/
theorem Keeps.visit {held : List (Observation V)} {known : Option (Entry V)} (h : Keeps held known)
    (hne : held ≠ []) :
    ∃ best, Record held best ∧ ∀ (time : Nat) (value : V),
      let change := Tracker.changeOf known time value
      (change.increase?.isSome = true ↔ best.time < time) ∧
        (best.time < time → 0 < time - best.time ∧
          change.increase? = some (if Amount.less value best.value then value
            else Amount.minus value best.value) ∧
          change.rate? = change.increase?.map (Amount.perSecond · (time - best.time))) ∧
        (change.moved = true ↔
          change.increase?.isSome = true ∧ Amount.differs value best.value = true) := by
  obtain ⟨best, hbest, hchange⟩ := h.changeOf_record hne
  refine ⟨best, hbest, fun time value => ?_⟩
  obtain ⟨hlate, hstep⟩ := hchange time value
  rcases Nat.lt_or_ge best.time time with hlt | hle
  · obtain ⟨hc, hpos, hincrease, hrate⟩ := hstep hlt
    refine ⟨?_, fun _ => ⟨hpos, hincrease, hrate⟩, ?_⟩
    · rw [hincrease]
      exact iff_of_true rfl hlt
    · rw [hincrease, hc]
      exact (and_iff_right rfl).symm
  · rw [hlate.mpr hle]
    have hnot : ¬best.time < time := Nat.not_lt.mpr hle
    exact ⟨iff_of_false Bool.false_ne_true hnot, fun hlt => absurd hlt hnot,
      iff_of_false Bool.false_ne_true fun hsome => Bool.false_ne_true hsome.1⟩

/-- In every run of queries one way of visiting a series may stand for another, with the same time
and value: the cache goes through the same states, and what is asked as before is replied as before.
After every run, there is a rate exactly when there is an increase, which is when something is held
of the series and the visit is newer than its record; the rate is the increase over the seconds
since then, which are positive; and the extremum has moved exactly when there is an increase and the
value differs from the record's. -/
theorem ways_of_visiting_agree (ttl : Nat) (hash : Series → Nat) {count : Nat} (hcount : 0 < count)
    (clock : UInt64) (queries : List (Query V)) :
    let start : Clocked (Sharded V) := ⟨.empty ttl hash hcount, clock⟩
    (∀ others : List (Query V), List.Forall₂ Query.SameVisit queries others →
      (start.askAll queries).map Prod.snd = (start.askAll others).map Prod.snd ∧
        ∀ i : Nat, queries[i]? = others[i]? →
          (start.askAll queries)[i]? = (start.askAll others)[i]?) ∧
    (∀ (series : Series) (time : Nat) (value : V),
      let state := start.after queries
      let held := Station.residence series ⟨.empty ttl, clock, 0, 0, none⟩ []
        (queries.map Query.action)
      ∃ increase rate moved,
        (state.ask (.increase series time value)).1 = .amount increase ∧
        (state.ask (.rate series time value)).1 = .amount rate ∧
        (state.ask (.extremum series time value)).1 = .flag moved ∧
        rate.isSome = increase.isSome ∧
        (held = [] → increase = none ∧ moved = false) ∧
        (held ≠ [] → ∃ best, Record held best ∧
          (increase.isSome = true ↔ best.time < time) ∧
          (best.time < time → 0 < time - best.time ∧
            increase = some (if Amount.less value best.value then value
              else Amount.minus value best.value) ∧
            rate = increase.map (Amount.perSecond · (time - best.time))) ∧
          (moved = true ↔ increase.isSome = true ∧ Amount.differs value best.value = true))) ∧
    ∀ elapsed, 0 < elapsed → elapsed < UInt64.size →
      0 < Amount.seconds elapsed ∧
        ∀ a : Float, Amount.perSecond a elapsed = a / Amount.seconds elapsed := by
  intro start
  refine ⟨fun others h => ⟨start.map_snd_askAll h, start.getElem?_askAll h⟩, ?_, ?_⟩
  · intro series time value state held
    have hstart : Clocked.Agree hash count start ⟨.empty ttl, clock⟩ :=
      ⟨rfl, Spreads.empty ttl hash hcount⟩
    obtain ⟨hincrease, hrate, hmoved⟩ := (hstart.after queries).visits series time value
    have hkeeps : Keeps held
        (((⟨.empty ttl, clock⟩ : Clocked (Tracker V)).after queries).station.known? series) := by
      rw [Clocked.station_after]
      exact Station.keeps_residence (Keeps.none_iff.mpr rfl) _
    refine ⟨_, _, _, hincrease, hrate, hmoved, Change.isSome_rate? _, fun hnil => ?_, fun hne => ?_⟩
    · rw [(hkeeps.changeOf_eq_baseline_iff time value).mpr hnil]
      exact ⟨rfl, rfl⟩
    · obtain ⟨best, hbest, hvisit⟩ := hkeeps.visit hne
      exact ⟨best, hbest, hvisit time value⟩
  · intro elapsed hpos hsize
    exact ⟨Amount.seconds_pos hpos hsize, fun _ => rfl⟩

/-- Visits to a series with a sweep between them. -/
def visitsTo (series : Series) (first second third : Way) : List (Query Rat) :=
  [first.query series 1 5, .advance 10, second.query series 3 8, .sweep, third.query series 3 9,
    .knows series, .size]

theorem ways_of_visiting_agree_when_turned :
    let series := Series.of "requests" [] none none
    let start : Clocked (Sharded Rat) := ⟨.empty 60 (fun _ => 5) (show 0 < 3 by decide), 0⟩
    let queries := visitsTo series .increase .rate .extremum
    let others := visitsTo series .extremum .increase .rate
    (start.askAll queries).map Prod.snd = (start.askAll others).map Prod.snd ∧
      (start.askAll queries)[3]? = (start.askAll others)[3]? ∧
      ((start.after queries).ask (.rate series 2000000003 18)).1 = .amount (some 5) := by
  intro series start queries others
  have h := ways_of_visiting_agree 60 (fun _ => 5) (show 0 < 3 by decide) 0 queries
  have hsame : List.Forall₂ Query.SameVisit queries others :=
    .cons (.visit _ _ _ _ _) (.cons (.refl _) (.cons (.visit _ _ _ _ _) (.cons (.refl _)
      (.cons (.visit _ _ _ _ _) (.cons (.refl _) (.cons (.refl _) .nil))))))
  obtain ⟨hstates, hreplies⟩ := h.1 others hsame
  exact ⟨hstates, hreplies 3 rfl, by decide +kernel⟩

end MetricPoints
