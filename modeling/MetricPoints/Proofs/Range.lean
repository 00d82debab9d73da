import MetricPoints.Proofs.Binary64.Seconds
import MetricPoints.Proofs.Derived

/-
  The range of what is emitted. Gauges and the statistics of distributions are passed on as they
  were checked, and are finite. A count can leave the range of 64-bit binary numbers although all
  totals are in it: a total that grows from the least number to the largest one has grown by twice
  as much (`total_leaves_range`). A count is infinite only if its series has grown too much for the
  range (`Outgrows`), a rate also if it is too much for each second (`Overruns`), and nothing is
  emitted that is not a number at all.

  Main statement: `Converter.emits_in_range`.
-/

namespace MetricPoints

open Binary64

/-- The numbers of a reading. -/
def Reading.amounts {V : Type} : Reading V → List V
  | count value | gauge value | rate value => [value]
  | distribution values => values.stats.amounts

/-- From one sample to the other, a total has exactly grown by more than the range holds. -/
def Outgrows (earlier later : Sample Float) : Prop :=
  limit ≤ exact later.value - exact earlier.value

/-- What was added from one sample to the other is finite, but for each second it is exactly more
than the range holds. -/
def Overruns (earlier later : Sample Float) : Prop :=
  ∃ increase, (earlier.changeTo later).increase? = some increase ∧ increase.isFinite = true ∧
    limit ≤ |exact increase| / exact (Amount.seconds (later.time - earlier.time))

/-- A point whose numbers are finite, or whose number is what has changed from one sample to another
and has no finite value for that reason. -/
inductive Point.InRange (samples : List (Sample Float)) : Point Float → Prop where
  | finite {point : Point Float} (h : ∀ value ∈ point.reading.amounts, value.isFinite = true) :
      InRange samples point
  | count {earlier later : Sample Float} {value : Float} (h : Follows samples earlier later)
      (hi : (earlier.changeTo later).increase? = some value) (hinfinite : value.isInf = true)
      (hcause : Outgrows earlier later) :
      InRange samples (.at later.time later.labels (.count value))
  | rate {earlier later : Sample Float} {value : Float} (h : Follows samples earlier later)
      (hr : (earlier.changeTo later).rate? = some value) (hinfinite : value.isInf = true)
      (hcause : Outgrows earlier later ∨ Overruns earlier later) :
      InRange samples (.at later.time later.labels (.rate value))

theorem finiteCounts_float : FiniteCounts Float := by
  intro n hn
  rcases Nat.eq_zero_or_pos n with rfl | hpos
  · exact isFinite_of_unpack unpack_ofNat_zero
  · exact (between_ofNat hpos hn).isFinite

section Points

variable {samples : List (Sample Float)} {earlier later : Sample Float}

/-- What is added is finite, or the total has outgrown the range. -/
theorem Follows.increase_cases (h : Follows samples earlier later) {increase : Float}
    (hi : (earlier.changeTo later).increase? = some increase) :
    increase.isFinite = true ∨ increase.isInf = true ∧ Outgrows earlier later := by
  have hearlier := h.earlier_finite
  have hlater := h.later_finite
  replace hi : (if Amount.less later.value earlier.value then later.value
    else Amount.minus later.value earlier.value) = increase := Option.some.inj hi
  split at hi
  · exact .inl (hi ▸ hlater)
  · rename_i hless
    have hgives := sub_gives hlater hearlier
    rcases lt_or_ge |exact later.value - exact earlier.value| limit with hlt | hge
    · exact .inl (hi ▸ hgives.finite hlt)
    · have horder : exact earlier.value ≤ exact later.value := by
        by_contra hlt
        exact hless (decide_eq_true (lt_of_exact_lt hlater hearlier (not_le.mp hlt)))
      have houtgrows : Outgrows earlier later := by
        rwa [abs_of_nonneg (sub_nonneg.mpr horder)] at hge
      exact .inr ⟨hi ▸ hgives.infinite hge, houtgrows⟩

theorem Follows.rate_cases (h : Follows samples earlier later) (hlt : later.time < UInt64.size)
    {rate : Float} (hr : (earlier.changeTo later).rate? = some rate) :
    rate.isFinite = true ∨
      rate.isInf = true ∧ (Outgrows earlier later ∨ Overruns earlier later) := by
  have htime := h.time
  have hseconds : Between (-64) 65 (Amount.seconds (later.time - earlier.time)) :=
    Amount.between_seconds (by omega) (by omega)
  replace hr : (earlier.changeTo later).increase?.map
    (Amount.perSecond · (later.time - earlier.time)) = some rate := hr
  obtain ⟨increase, hi, rfl⟩ := Option.map_eq_some_iff.mp hr
  rcases h.increase_cases hi with hfinite | ⟨hinfinite, houtgrows⟩
  · have hgives := div_gives hfinite hseconds.isFinite hseconds.exact_pos
    rcases lt_or_ge (|exact increase| / exact (Amount.seconds (later.time - earlier.time))) limit
      with hq | hq
    · exact .inl (hgives.finite hq)
    · exact .inr ⟨hgives.infinite hq, .inr ⟨increase, hi, hfinite, hq⟩⟩
  · exact .inr ⟨isInf_div hinfinite hseconds.isFinite hseconds.exact_pos, .inl houtgrows⟩

theorem Point.Derived.inRange {point : Point Float} (h : point.Derived samples) :
    point.InRange samples := by
  have hone {time : Nat} {labels : Labels} {reading : Reading Float} {value : Float}
      (ha : reading.amounts = [value]) (hfinite : value.isFinite = true) :
      (Point.at time labels reading).InRange samples := by
    refine .finite fun other ho => ?_
    rw [Point.at, ha] at ho
    rwa [List.mem_singleton.mp ho]
  cases h with
  | count h => exact hone rfl h
  | gauge h => exact hone rfl h
  | distribution h => exact .finite h
  | increase h hi =>
    rcases h.increase_cases hi with hfinite | ⟨hinfinite, hcause⟩
    · exact hone rfl hfinite
    · exact .count h hi hinfinite hcause
  | rate h hlt hr =>
    rcases h.rate_cases hlt hr with hfinite | ⟨hinfinite, hcause⟩
    · exact hone rfl hfinite
    · exact .rate h hr hinfinite hcause

end Points

namespace Converter

/-- For all settings and all calls with 64-bit counts and times, whatever is emitted is in range. -/
theorem emits_in_range {settings : Settings} {observer : Observer} {counting runtime : Bool}
    {converter : Converter Float}
    (hstart : start settings observer counting runtime = .ok converter)
    {calls : List (Call Float)} (hfits : ∀ call ∈ calls, call.fits = true)
    {converted : Converted Float} (hc : converted ∈ (converter.serve calls).1)
    {point : Point Float} (hp : point ∈ converted.points) :
    point.InRange (settings.submitted calls) :=
  (derived_of_start finiteCounts_float hstart hfits hc hp).inRange

/-- The largest finite number. -/
def largest : Float := Float.ofBits 0x7fefffffffffffff

/-- A total that grows from the least finite number to the largest one. -/
def widestGrowth : List (Call Float) :=
  [.convert 0 [⟨[], [⟨none, [⟨"balance", .sum 2 true
    [⟨Amount.second, [], 0, some (.real (-largest))⟩,
      ⟨2 * Amount.second, [], 0, some (.real largest)⟩]⟩]⟩]⟩]]

/-- A converter with the default settings. -/
def ofDefaults : Converter Float :=
  ⟨.default, .empty (3600 * Amount.second), .collector, false, .zero⟩

/-- What is counted of it. -/
def widestCount : Point Float := ⟨⟨"balance", .empty, none, none⟩, .count (largest - -largest), 2⟩

theorem fits_widestGrowth : ∀ call ∈ widestGrowth, call.fits = true := by decide

/-- The count is the only point. -/
theorem exists_widestCount :
    ∃ converted ∈ (ofDefaults.serve widestGrowth).1, widestCount ∈ converted.points := by
  have hserve : (ofDefaults.serve widestGrowth).1.map Converted.points = [[widestCount]] := by
    decide +kernel
  obtain ⟨converted, hc, hpoints⟩ :=
    List.mem_map.mp (hserve ▸ List.mem_singleton_self ([widestCount]))
  exact ⟨converted, hc, hpoints ▸ List.mem_singleton_self _⟩

theorem widestCount_in_range :
    start .default .collector false true = .ok ofDefaults ∧
      (∀ call ∈ widestGrowth, call.fits = true) ∧
      ∃ converted ∈ (ofDefaults.serve widestGrowth).1, widestCount ∈ converted.points ∧
        widestCount.InRange (Settings.default.submitted widestGrowth) := by
  have hstart : start .default .collector false true = .ok ofDefaults := rfl
  obtain ⟨converted, hc, hp⟩ := exists_widestCount
  exact ⟨hstart, fits_widestGrowth, converted, hc, hp,
    emits_in_range hstart fits_widestGrowth hc hp⟩

/-- Not everything that is emitted is finite. -/
theorem total_leaves_range :
    ¬ ∀ (settings : Settings) (observer : Observer) (counting runtime : Bool)
      (converter : Converter Float),
      start settings observer counting runtime = .ok converter →
      ∀ calls : List (Call Float), (∀ call ∈ calls, call.fits = true) →
      ∀ converted ∈ (converter.serve calls).1, ∀ point ∈ converted.points,
        ∀ value ∈ point.reading.amounts, value.isFinite = true := by
  intro hfinite
  obtain ⟨converted, hc, hp⟩ := exists_widestCount
  have hcount := hfinite .default .collector false true ofDefaults rfl widestGrowth
    fits_widestGrowth converted hc widestCount hp (largest - -largest) (List.mem_singleton_self _)
  have hinfinite : (largest - -largest).isFinite = false := by decide +kernel
  exact Bool.noConfusion (hinfinite.symm.trans hcount)

end Converter

end MetricPoints
