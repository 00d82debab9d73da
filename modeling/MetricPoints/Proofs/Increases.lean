import Mathlib.Algebra.Order.Ring.Rat
import Mathlib.Tactic.Linarith
import MetricPoints.Proofs.Alike
import MetricPoints.Proofs.Residence

/-
  What the increases of one series add up to, from its baseline on and as long as it is not
  forgotten. An observation is accepted when it is newer than all before it. Whatever else a run of
  actions does, the observations of the series mean what they mean one after the other to the value
  that is stored (`changes_eq_meanings`). The increases then telescope along the accepted values;
  only a value lower than the accepted one before it breaks the chain (`sum_meanings`). Values that
  never drop with time never do, so that the order in which they arrive is of no account.

  Main statements: `Station.increases_conserve` and `Station.delivery_order_is_irrelevant`.
-/

namespace MetricPoints

variable {V : Type}

/-! ## Accepted observations -/

/-- The observations that are newer than `time` and than all before them, in order. -/
def acceptedAfter (time : Nat) : List (Observation V) → List (Observation V)
  | [] => []
  | o :: rest =>
    if o.time ≤ time then acceptedAfter time rest else o :: acceptedAfter o.time rest

/-- The observations that are newer than all before them, in order. -/
def accepted : List (Observation V) → List (Observation V)
  | [] => []
  | o :: rest => o :: acceptedAfter o.time rest

section Accepted

variable {time : Nat} {o : Observation V} {observations : List (Observation V)}

theorem acceptedAfter_cons_of_le (h : o.time ≤ time) (rest : List (Observation V)) :
    acceptedAfter time (o :: rest) = acceptedAfter time rest := if_pos h

theorem acceptedAfter_cons_of_lt (h : time < o.time) (rest : List (Observation V)) :
    acceptedAfter time (o :: rest) = o :: acceptedAfter o.time rest :=
  if_neg (Nat.not_le_of_lt h)

theorem sublist_acceptedAfter (time : Nat) (observations : List (Observation V)) :
    (acceptedAfter time observations).Sublist observations := by
  induction observations generalizing time with
  | nil => exact List.Sublist.slnil
  | cons o rest ih =>
    unfold acceptedAfter
    split
    · exact (ih time).cons o
    · exact (ih o.time).cons_cons o

/-- Accepted observations are newer and newer. -/
theorem pairwise_time_acceptedAfter (time : Nat) (observations : List (Observation V)) :
    (time :: (acceptedAfter time observations).map Observation.time).Pairwise (· < ·) := by
  induction observations generalizing time with
  | nil => exact List.pairwise_singleton _ _
  | cons o rest ih =>
    by_cases h : o.time ≤ time
    · rw [acceptedAfter_cons_of_le h]
      exact ih time
    · have hlt := Nat.lt_of_not_le h
      have hrest := ih o.time
      rw [acceptedAfter_cons_of_lt hlt, List.map_cons]
      refine List.pairwise_cons.mpr ⟨fun later hl => ?_, hrest⟩
      rcases List.mem_cons.mp hl with rfl | hl
      · exact hlt
      · exact Nat.lt_trans hlt ((List.pairwise_cons.mp hrest).1 later hl)

/-- The last accepted observation is among the newest. -/
theorem time_le_last_acceptedAfter (held : Observation V) (observations : List (Observation V)) :
    ∀ o ∈ held :: observations,
      o.time ≤ ((acceptedAfter held.time observations).getLastD held).time := by
  induction observations generalizing held with
  | nil => simp [acceptedAfter]
  | cons p rest ih =>
    by_cases h : p.time ≤ held.time
    · rw [acceptedAfter_cons_of_le h]
      obtain ⟨hheld, hrest⟩ := List.forall_mem_cons.mp (ih held)
      exact List.forall_mem_cons.mpr
        ⟨hheld, List.forall_mem_cons.mpr ⟨Nat.le_trans h hheld, hrest⟩⟩
    · have hlt := Nat.lt_of_not_le h
      rw [acceptedAfter_cons_of_lt hlt, List.getLastD_cons]
      obtain ⟨hp, hrest⟩ := List.forall_mem_cons.mp (ih p)
      exact List.forall_mem_cons.mpr
        ⟨Nat.le_of_lt (Nat.lt_of_lt_of_le hlt hp), List.forall_mem_cons.mpr ⟨hp, hrest⟩⟩

end Accepted

/-! ## What observations mean one after the other -/

namespace Tracker

/-- What an observation means to the value that is stored, if there is one. -/
def meaning (stored : Option (Observation V)) (o : Observation V) : Change V :=
  match stored with
  | none => .baseline
  | some held =>
    if o.time ≤ held.time then .late else .step held.value o.value (o.time - held.time)

/-- Observations in order, each with what it means to the value that is stored by then. -/
def meanings (stored : Option (Observation V)) :
    List (Observation V) → List (Observation V × Change V)
  | [] => []
  | o :: rest => (o, meaning stored o) :: meanings (some (storedAfter stored o)) rest

/-- What is stored after observations in order. -/
def storedOver (stored : Option (Observation V)) (observations : List (Observation V)) :
    Option (Observation V) :=
  observations.foldl (fun stored o => some (storedAfter stored o)) stored

theorem meanings_append (stored : Option (Observation V)) (xs ys : List (Observation V)) :
    meanings stored (xs ++ ys) = meanings stored xs ++ meanings (storedOver stored xs) ys := by
  induction xs generalizing stored with
  | nil => rfl
  | cons o rest ih =>
    rw [List.cons_append, meanings, ih]
    rfl

theorem changeOf_eq_meaning (known : Option (Entry V)) (time : Nat) (value : V) :
    changeOf known time value = meaning (known.map Entry.stored) ⟨time, value⟩ := by
  cases known <;> rfl

theorem stored_entryOver (now : Nat) (known : Option (Entry V))
    (observations : List (Observation V)) :
    (entryOver now known observations).map Entry.stored =
      storedOver (known.map Entry.stored) observations := by
  induction observations generalizing known with
  | nil => rfl
  | cons o rest ih =>
    rw [entryOver_cons, ih, Option.map_some, stored_entryAfter]
    rfl

/-- Of samples in order, those of one series mean what they mean one after the other. -/
theorem changes_observeAll (tracker : Tracker V) (now : Nat) (samples : List (Sample V))
    (series : Series) :
    ((samples.zip (tracker.observeAll now samples).1).filter (·.1.series = series)).map
        (fun e => (e.1.observation, e.2)) =
      meanings (tracker.stored? series) (observationsOf series samples) := by
  induction samples generalizing tracker with
  | nil => rfl
  | cons sample rest ih =>
    have hrest := ih (tracker.submit now sample)
    rw [stored?_submit] at hrest
    rw [fst_observeAll_cons, List.zip_cons_cons]
    by_cases h : sample.series = series
    · rw [if_pos h.symm] at hrest
      have hchange : tracker.changeFor sample =
          meaning (tracker.stored? series) sample.observation := h ▸ changeOf_eq_meaning _ _ _
      rw [List.filter_cons, if_pos (decide_eq_true h), List.map_cons, hrest,
        observationsOf_cons_of_eq h, meanings, hchange]
    · rw [if_neg (Ne.symm h)] at hrest
      rw [List.filter_cons, if_neg (by simpa using h), hrest, observationsOf_cons_of_ne h]

end Tracker

namespace Station

variable [Amount V]

/-- The observations that an action makes of a series, each with what it means. -/
def changesIn (series : Series) (station : Station V) :
    Action V → List (Observation V × Change V)
  | .increase other time value | .rate other time value | .moved other time value =>
    if other = series then [(⟨time, value⟩, (station.observe other time value).1)] else []
  | .run plan =>
    ((plan.samples.zip (station.tracker.observeAll station.now plan.samples).1).filter
      (·.1.series = series)).map fun e => (e.1.observation, e.2)
  | _ => []

/-- The observations that a run of actions makes of a series, each with what it means. -/
def changes (series : Series) (station : Station V) :
    List (Action V) → List (Observation V × Change V)
  | [] => []
  | action :: rest => station.changesIn series action ++ changes series (station.act action).2 rest

/-- The increases of a series over a run of actions, in order. -/
def increases (series : Series) (station : Station V) (actions : List (Action V)) : List V :=
  (station.changes series actions).filterMap (·.2.increase?)

/-- The increase that an action answers when it asks for that of a series. -/
def answer? (series : Series) (station : Station V) (action : Action V) : Option V :=
  match action, (station.act action).1 with
  | .increase other _ _, .amount value => if other = series then value else none
  | _, _ => none

/-- The increases that a run of actions answers for a series, in order. -/
def answered (series : Series) (station : Station V) : List (Action V) → List V
  | [] => []
  | action :: rest =>
    (station.answer? series action).toList ++ answered series (station.act action).2 rest

/-- Says that a run of actions observes a series only where it asks for its increases. -/
def AsksIncreases (series : Series) (actions : List (Action V)) : Prop :=
  ∀ action ∈ actions, action.observations series ≠ [] →
    ∃ time value, action = .increase series time value

/-- Says that a run of actions never makes the tracker forget a series. -/
def Retains (series : Series) (station : Station V) : List (Action V) → Prop
  | [] => True
  | action :: rest =>
    station.forgets action series = false ∧ Retains series (station.act action).2 rest

instance Retains.decidable (series : Series) : (station : Station V) →
    (actions : List (Action V)) → Decidable (station.Retains series actions)
  | _, [] => inferInstanceAs (Decidable True)
  | station, action :: rest =>
    have := decidable series (station.act action).2 rest
    inferInstanceAs (Decidable (station.forgets action series = false ∧ _))

theorem Retains.of_append {series : Series} {station : Station V} {actions more : List (Action V)}
    (h : station.Retains series (actions ++ more)) : station.Retains series actions := by
  induction actions generalizing station with
  | nil => trivial
  | cons action rest ih => exact ⟨h.1, ih h.2⟩

theorem Retains.after_of_append {series : Series} {station : Station V}
    {actions more : List (Action V)} (h : station.Retains series (actions ++ more)) :
    (station.after actions).Retains series more := by
  induction actions generalizing station with
  | nil => exact h
  | cons action rest ih =>
    rw [after_cons]
    exact ih h.2

/-- The observations that a run of actions makes of a series. -/
def observationsIn (series : Series) (actions : List (Action V)) : List (Observation V) :=
  actions.flatMap (Action.observations series)

variable {series : Series} {station : Station V}

theorem known?_act_of_not_forgets {action : Action V}
    (h : station.forgets action series = false) :
    (station.act action).2.known? series =
      Tracker.entryOver station.now (station.known? series) (action.observations series) := by
  by_cases hs : station.sweeps action = true
  · -- a sweep that does not forget the series leaves what is known of it
    rw [forgets, knows_eq_isSome, knows_eq_isSome, known?_act_eq, if_pos hs] at h
    rw [known?_act_eq, if_pos hs, observations_eq_nil_of_sweeps hs, Tracker.entryOver_nil]
    cases hk : station.known? series with
    | none => rfl
    | some entry =>
      rw [Option.filter_some]
      split
      · rfl
      · rename_i hstale
        simp [hk, hstale] at h
  · rw [known?_act_eq, if_neg hs]

theorem stored?_act_of_not_forgets {action : Action V}
    (h : station.forgets action series = false) :
    (station.act action).2.tracker.stored? series =
      Tracker.storedOver (station.tracker.stored? series) (action.observations series) := by
  have hk := congrArg (Option.map Entry.stored) (known?_act_of_not_forgets h)
  rwa [Tracker.stored_entryOver] at hk

omit [Amount V] in
theorem changesIn_observe (station : Station V) (other series : Series) (time : Nat) (value : V) :
    (if other = series then [((⟨time, value⟩ : Observation V),
        (station.observe other time value).1)] else []) =
      Tracker.meanings (station.tracker.stored? series)
        (if other = series then [⟨time, value⟩] else []) := by
  by_cases h : other = series
  · subst h
    rw [if_pos rfl, if_pos rfl, observe]
    exact congrArg (fun change => [(_, change)]) (Tracker.changeOf_eq_meaning _ time value)
  · rw [if_neg h, if_neg h]
    rfl

omit [Amount V] in
theorem changesIn_eq_meanings (station : Station V) (series : Series) (action : Action V) :
    station.changesIn series action =
      Tracker.meanings (station.tracker.stored? series) (action.observations series) := by
  cases action with
  | increase other time value => exact station.changesIn_observe other series time value
  | rate other time value => exact station.changesIn_observe other series time value
  | moved other time value => exact station.changesIn_observe other series time value
  | run plan => exact station.tracker.changes_observeAll station.now plan.samples series
  | _ => rfl

omit [Amount V] in
theorem stored?_eq_none (h : station.tracker.knows series = false) :
    station.tracker.stored? series = none := by
  rw [knows_eq_isSome] at h
  rw [Tracker.stored?, Option.map_eq_none_iff]
  simpa [known?] using h

/-- As long as a series is not forgotten, its observations mean what they mean one after the other,
whatever else is done. -/
theorem changes_eq_meanings {actions : List (Action V)} (h : station.Retains series actions) :
    station.changes series actions =
      Tracker.meanings (station.tracker.stored? series) (observationsIn series actions) := by
  induction actions generalizing station with
  | nil => rfl
  | cons action rest ih =>
    obtain ⟨hf, hrest⟩ := h
    rw [changes, changesIn_eq_meanings, ih hrest, stored?_act_of_not_forgets hf,
      ← Tracker.meanings_append]
    rfl

/-- An action that observes a series only if it asks for its increase answers that increase. -/
theorem answer?_eq_increase (station : Station V) {action : Action V}
    (h : action.observations series ≠ [] → ∃ time value, action = .increase series time value) :
    (station.answer? series action).toList =
      (station.changesIn series action).filterMap (·.2.increase?) := by
  by_cases hnone : action.observations series = []
  · rw [changesIn_eq_meanings, hnone]
    cases action with
    | increase other time value =>
      have hother : other ≠ series := fun he => by simp [Action.observations, he] at hnone
      exact congrArg Option.toList (if_neg hother)
    | _ => rfl
  · obtain ⟨time, value, rfl⟩ := h hnone
    simp only [answer?, act, changesIn, if_true, List.filterMap_cons, List.filterMap_nil]
    cases (station.observe series time value).1.increase? <;> rfl

/-- Where only increases are asked for, they are the answers. -/
theorem answered_eq_increases {actions : List (Action V)} (h : AsksIncreases series actions) :
    station.answered series actions = station.increases series actions := by
  induction actions generalizing station with
  | nil => rfl
  | cons action rest ih =>
    obtain ⟨hasks, hrest⟩ := List.forall_mem_cons.mp h
    rw [increases, changes, List.filterMap_append, answered, answer?_eq_increase station hasks,
      ih hrest]
    rfl

end Station

/-! ## What increases add up to -/

/-- Every value that is followed by a lower one. -/
def resets (values : List Rat) : List Rat :=
  ((values.zip values.tail).filter fun e => e.2 < e.1).map Prod.fst

theorem resets_cons_cons (first next : Rat) (rest : List Rat) :
    resets (first :: next :: rest) =
      (if next < first then [first] else []) ++ resets (next :: rest) := by
  simp only [resets, List.tail_cons, List.zip_cons_cons, List.filter_cons, decide_eq_true_eq]
  split <;> rfl

theorem resets_eq_nil {values : List Rat} (h : values.Pairwise (· ≤ ·)) : resets values = [] := by
  induction values with
  | nil => rfl
  | cons first rest ih =>
    obtain ⟨hfirst, hrest⟩ := List.pairwise_cons.mp h
    cases rest with
    | nil => rfl
    | cons next rest =>
      rw [resets_cons_cons, if_neg (not_lt.mpr (hfirst next List.mem_cons_self)), ih hrest,
        List.append_nil]

namespace Tracker

theorem increase?_meaning_of_le {held o : Observation Rat} (h : o.time ≤ held.time) :
    (meaning (some held) o).increase? = none := by
  rw [meaning, if_pos h]
  rfl

theorem increase?_meaning_of_lt {held o : Observation Rat} (h : held.time < o.time) :
    (meaning (some held) o).increase? =
      some (if o.value < held.value then o.value else o.value - held.value) := by
  rw [meaning, if_neg (Nat.not_le_of_lt h)]
  show some (if decide (o.value < held.value) = true then _ else _) = _
  simp only [decide_eq_true_eq]
  rfl

theorem storedAfter_of_le {held o : Observation V} (h : o.time ≤ held.time) :
    storedAfter (some held) o = held := if_pos h

theorem storedAfter_of_lt {held o : Observation V} (h : held.time < o.time) :
    storedAfter (some held) o = o := if_neg (Nat.not_le_of_lt h)

/-- What is not late is what is newer than all before it. -/
theorem not_late_meanings (held : Observation V) (observations : List (Observation V)) :
    ((meanings (some held) observations).filter (!·.2.isLate)).map Prod.fst =
      acceptedAfter held.time observations := by
  induction observations generalizing held with
  | nil => rfl
  | cons o rest ih =>
    by_cases h : o.time ≤ held.time
    · have hlate : meaning (some held) o = .late := if_pos h
      rw [acceptedAfter_cons_of_le h, meanings, hlate, storedAfter_of_le h,
        List.filter_cons_of_neg Bool.false_ne_true, ih]
    · have hlt := Nat.lt_of_not_le h
      have hstep : meaning (some held) o = .step held.value o.value (o.time - held.time) :=
        if_neg h
      rw [acceptedAfter_cons_of_lt hlt, meanings, hstep, storedAfter_of_lt hlt,
        List.filter_cons_of_pos rfl, List.map_cons, ih]

/-- Increases telescope along the accepted values, up to those that are followed by a lower one. -/
theorem sum_meanings (held : Observation Rat) (observations : List (Observation Rat)) :
    ((meanings (some held) observations).filterMap (·.2.increase?)).sum =
      ((acceptedAfter held.time observations).getLastD held).value - held.value +
        (resets ((held :: acceptedAfter held.time observations).map Observation.value)).sum := by
  induction observations generalizing held with
  | nil => simp [meanings, acceptedAfter, resets]
  | cons o rest ih =>
    rw [meanings, List.filterMap_cons]
    by_cases h : o.time ≤ held.time
    · rw [increase?_meaning_of_le h, storedAfter_of_le h, acceptedAfter_cons_of_le h]
      exact ih held
    · have hlt := Nat.lt_of_not_le h
      rw [increase?_meaning_of_lt hlt, storedAfter_of_lt hlt, acceptedAfter_cons_of_lt hlt,
        List.getLastD_cons, List.map_cons, List.map_cons, resets_cons_cons, List.sum_append,
        List.sum_cons, ih o, List.map_cons]
      -- a drop counts the new value in full, so that the value before it is left over
      split
      · rw [List.sum_singleton]
        linarith
      · rw [List.sum_nil]
        linarith

/-- Where no value is negative, an increase is neither negative nor more than the value. -/
theorem bounds_meaning {stored : Option (Observation Rat)}
    (hs : ∀ held ∈ stored, 0 ≤ held.value) {o : Observation Rat} (ho : 0 ≤ o.value) :
    ∀ increase ∈ (meaning stored o).increase?, 0 ≤ increase ∧ increase ≤ o.value := by
  intro increase h
  cases stored with
  | none => exact nomatch h
  | some held =>
    have hheld := hs held rfl
    by_cases hle : o.time ≤ held.time
    · rw [increase?_meaning_of_le hle] at h
      exact nomatch h
    · rw [increase?_meaning_of_lt (Nat.lt_of_not_le hle), Option.mem_some_iff] at h
      subst h
      split
      · exact ⟨ho, le_refl _⟩
      · exact ⟨by linarith, by linarith⟩

theorem storedAfter_nonneg {stored : Option (Observation Rat)}
    (hs : ∀ held ∈ stored, 0 ≤ held.value) {o : Observation Rat} (ho : 0 ≤ o.value) :
    0 ≤ (storedAfter stored o).value := by
  cases stored with
  | none => exact ho
  | some held =>
    rcases Nat.lt_or_ge held.time o.time with h | h
    · rw [storedAfter_of_lt h]
      exact ho
    · rw [storedAfter_of_le h]
      exact hs held rfl

theorem bounds_meanings {stored : Option (Observation Rat)}
    (hs : ∀ held ∈ stored, 0 ≤ held.value) {observations : List (Observation Rat)}
    (ho : ∀ o ∈ observations, 0 ≤ o.value) :
    ∀ e ∈ meanings stored observations, ∀ increase ∈ e.2.increase?,
      0 ≤ increase ∧ increase ≤ e.1.value := by
  induction observations generalizing stored with
  | nil => simp [meanings]
  | cons o rest ih =>
    obtain ⟨hfirst, hrest⟩ := List.forall_mem_cons.mp ho
    have hstored : ∀ held ∈ some (storedAfter stored o), 0 ≤ held.value := by
      rintro held ⟨⟩
      exact storedAfter_nonneg hs hfirst
    exact List.forall_mem_cons.mpr ⟨bounds_meaning hs hfirst, ih hstored hrest⟩

end Tracker

namespace Station

variable {station : Station Rat} {series : Series} {actions : List (Action Rat)}

/-- The first observation of a series is its baseline; the others mean what they mean after it. -/
theorem changes_eq_of_unknown (hunknown : station.tracker.knows series = false)
    (hkept : station.Retains series actions) {baseline : Observation Rat}
    {later : List (Observation Rat)}
    (hobserved : observationsIn series actions = baseline :: later) :
    station.changes series actions =
      (baseline, .baseline) :: Tracker.meanings (some baseline) later := by
  rw [changes_eq_meanings hkept, stored?_eq_none hunknown, hobserved]
  rfl

theorem sum_increases_eq (hunknown : station.tracker.knows series = false)
    (hkept : station.Retains series actions) {baseline : Observation Rat}
    {later : List (Observation Rat)}
    (hobserved : observationsIn series actions = baseline :: later) :
    (station.increases series actions).sum =
      ((acceptedAfter baseline.time later).getLastD baseline).value - baseline.value +
        (resets ((accepted (baseline :: later)).map Observation.value)).sum := by
  rw [increases, changes_eq_of_unknown hunknown hkept hobserved]
  exact Tracker.sum_meanings baseline later

theorem increase_bounds (hunknown : station.tracker.knows series = false)
    (hkept : station.Retains series actions)
    (hvalues : ∀ o ∈ observationsIn series actions, 0 ≤ o.value) :
    ∀ e ∈ station.changes series actions, ∀ increase ∈ e.2.increase?,
      0 ≤ increase ∧ increase ≤ e.1.value := by
  rw [changes_eq_meanings hkept, stored?_eq_none hunknown]
  exact Tracker.bounds_meanings (fun _ h => absurd h (Option.not_mem_none _)) hvalues

/-- From its baseline on, and as long as it is not forgotten, the observations of a series that are
not late are those newer than all before them, and the increases add up to what these accepted
values grew by, plus every accepted value that is followed by a lower one. Where no value is
negative, no increase is negative or more than the value observed. Where increases are all that is
asked for, they are the answers. -/
theorem increases_conserve (hunknown : station.tracker.knows series = false)
    (hkept : station.Retains series actions) {baseline : Observation Rat}
    {later : List (Observation Rat)}
    (hobserved : observationsIn series actions = baseline :: later) :
    let held := accepted (baseline :: later)
    held = ((station.changes series actions).filter (!·.2.isLate)).map Prod.fst ∧
      (station.increases series actions).sum =
        (held.getLastD baseline).value - baseline.value +
          (resets (held.map Observation.value)).sum ∧
      ((∀ o ∈ baseline :: later, 0 ≤ o.value) →
        ∀ e ∈ station.changes series actions, ∀ increase ∈ e.2.increase?,
          0 ≤ increase ∧ increase ≤ e.1.value) ∧
      (AsksIncreases series actions →
        station.answered series actions = station.increases series actions) := by
  intro held
  have hlast : held.getLastD baseline =
      (acceptedAfter baseline.time later).getLastD baseline := List.getLastD_cons
  refine ⟨?_, ?_, ?_, answered_eq_increases⟩
  · rw [changes_eq_of_unknown hunknown hkept hobserved]
    exact congrArg (baseline :: ·) (Tracker.not_late_meanings baseline later).symm
  · rw [hlast]
    exact sum_increases_eq hunknown hkept hobserved
  · intro hvalues
    exact increase_bounds hunknown hkept (hobserved ▸ hvalues)

/-- A run with a late value, a reset, another series and a sweep. -/
def interrupted (series other : Series) : List (Action Rat) :=
  [.increase series 1 5, .increase other 9 100, .rate series 2 8, .advance 10, .sweep,
    .increase series 2 70, .increase series 4 2, .moved series 5 6]

theorem increases_conserve_interrupted :
    let station : Station Rat := .new 60 30
    let series := Series.of "requests" [] none none
    let actions := interrupted series (Series.of "errors" [] none none)
    station.Retains series actions ∧ (station.increases series actions).sum = 6 - 5 + 8 := by
  intro station series actions
  have hkept : station.Retains series actions := by
    refine ⟨?_, ?_, ?_, ?_, ?_, ?_, ?_, ?_, trivial⟩ <;> decide +kernel
  have hobserved : observationsIn series actions =
      ⟨1, 5⟩ :: [⟨2, 8⟩, ⟨2, 70⟩, ⟨4, 2⟩, ⟨5, 6⟩] := by decide +kernel
  have hunknown : station.tracker.knows series = false := rfl
  have h := (increases_conserve hunknown hkept hobserved).2.1
  exact ⟨hkept, h.trans (by decide +kernel)⟩

/-! ## The order of delivery -/

/-- A run of actions that observes a new series at these times, in this order, always at what `v`
gives for the time. -/
structure Delivers [Amount V] (v : Nat → V) (series : Series) (station : Station V)
    (actions : List (Action V)) (times : List Nat) : Prop where
  unknown : station.tracker.knows series = false
  retained : station.Retains series actions
  observed : observationsIn series actions = times.map fun time => ⟨time, v time⟩

namespace Delivers

variable {v : Nat → Rat} {times : List Nat}

/-- What is accepted after the first time lies on the graph of `v`, at times that are delivered. -/
theorem on_graph (first : Nat) (rest : List Nat) :
    ∀ o ∈ (⟨first, v first⟩ : Observation Rat) ::
        acceptedAfter first (rest.map fun time => ⟨time, v time⟩),
      o.value = v o.time ∧ o.time ∈ first :: rest := by
  intro o ho
  have hm : o ∈ (first :: rest).map fun time => (⟨time, v time⟩ : Observation Rat) :=
    ((sublist_acceptedAfter first _).cons_cons _).mem ho
  obtain ⟨time, ht, rfl⟩ := List.mem_map.mp hm
  exact ⟨rfl, ht⟩

/-- Values that never drop with time add up to what they grew by from the first time to the largest
one. -/
theorem sum_increases (hv : Monotone v) (h : Delivers v series station actions times)
    {first latest : Nat} (hf : times.head? = some first) (hl : times.max? = some latest) :
    (station.increases series actions).sum = v latest - v first := by
  obtain ⟨rest, rfl⟩ := List.head?_eq_some_iff.mp hf
  let baseline : Observation Rat := ⟨first, v first⟩
  let later : List (Observation Rat) := rest.map fun time => ⟨time, v time⟩
  let last := (acceptedAfter first later).getLastD baseline
  have hgraph := on_graph (v := v) first rest
  have hnone : resets ((accepted (baseline :: later)).map Observation.value) = [] := by
    apply resets_eq_nil
    have htimes : (accepted (baseline :: later)).Pairwise (·.time < ·.time) :=
      List.pairwise_map.mp (pairwise_time_acceptedAfter first later)
    refine List.pairwise_map.mpr (htimes.imp_of_mem fun ha hb hlt => ?_)
    rw [(hgraph _ ha).1, (hgraph _ hb).1]
    exact hv (Nat.le_of_lt hlt)
  -- the last accepted time is delivered and no other is larger, which makes it the largest
  have hlast : last.time = latest := by
    obtain ⟨hmem, hmax⟩ := List.max?_eq_some_iff.mp hl
    apply Nat.le_antisymm
    · exact hmax _ (hgraph last List.getLastD_mem_cons).2
    · exact time_le_last_acceptedAfter baseline later ⟨latest, v latest⟩
        (List.mem_map_of_mem (f := fun time => (⟨time, v time⟩ : Observation Rat)) hmem)
  have hsum := sum_increases_eq h.unknown h.retained h.observed
  rw [hnone, List.sum_nil, add_zero] at hsum
  rw [hsum, ← hlast, ← (hgraph last List.getLastD_mem_cons).1]

theorem increases_nonneg (h : Delivers v series station actions times)
    (hv : ∀ time ∈ times, 0 ≤ v time) : ∀ increase ∈ station.increases series actions,
      0 ≤ increase := by
  have hvalues : ∀ o ∈ observationsIn series actions, 0 ≤ o.value := by
    rw [h.observed]
    exact List.forall_mem_map.mpr hv
  intro increase hi
  obtain ⟨e, he, hincrease⟩ := List.mem_filterMap.mp hi
  exact (increase_bounds h.unknown h.retained hvalues e he increase hincrease).1

theorem increases_eq_nil (h : Delivers v series station actions times) (hnil : times = []) :
    station.increases series actions = [] := by
  rw [increases, changes_eq_meanings h.retained, h.observed, hnil]
  rfl

end Delivers

/-- However the values of a series that never drop with time are delivered, late ones and repeated
ones included, their increases add up to what the value grew by from the first time delivered to the
largest one; so that the same times in another order, from the same first one on, give the same
total. Where increases are all that is asked for, they are the answers. -/
theorem delivery_order_is_irrelevant {v : Nat → Rat} (hv : Monotone v) {series : Series}
    {station : Station Rat} {actions : List (Action Rat)} {times : List Nat}
    (h : Delivers v series station actions times) :
    (∀ first latest, times.head? = some first → times.max? = some latest →
      (station.increases series actions).sum = v latest - v first) ∧
    ((∀ time ∈ times, 0 ≤ v time) →
      ∀ increase ∈ station.increases series actions, 0 ≤ increase) ∧
    (∀ {series' station' actions' times'}, Delivers v series' station' actions' times' →
      times'.head? = times.head? → (∀ time, time ∈ times' ↔ time ∈ times) →
      (station'.increases series' actions').sum = (station.increases series actions).sum) ∧
    (AsksIncreases series actions →
      station.answered series actions = station.increases series actions) := by
  refine ⟨fun first latest hf hl => h.sum_increases hv hf hl, h.increases_nonneg, ?_,
    answered_eq_increases⟩
  intro series' station' actions' times' h' hhead hsame
  cases hl : times.max? with
  | none =>
    have hnil : times = [] := List.max?_eq_none_iff.mp hl
    have hnil' : times' = [] :=
      List.eq_nil_iff_forall_not_mem.mpr fun time ht =>
        List.not_mem_nil (hnil ▸ (hsame time).mp ht)
    rw [h.increases_eq_nil hnil, h'.increases_eq_nil hnil']
  | some latest =>
    have hne : times ≠ [] := fun e => by simp [e] at hl
    obtain ⟨first, hf⟩ := Option.isSome_iff_exists.mp (List.isSome_head?.mpr hne)
    have hl' : times'.max? = some latest := by
      rw [List.max?_eq_some_iff] at hl ⊢
      exact ⟨(hsame latest).mpr hl.1, fun time ht => hl.2 time ((hsame time).mp ht)⟩
    rw [h.sum_increases hv hf hl, h'.sum_increases hv (hhead.trans hf) hl']

/-- Deliveries of a series at these times, each of value and time alike. -/
def deliveries (series : Series) (times : List Nat) : List (Action Rat) :=
  times.map fun time => .increase series time time

theorem delivery_order_of_five :
    let station : Station Rat := .new 60 30
    let series := Series.of "requests" [] none none
    (station.increases series (deliveries series [1, 4, 2, 9, 9])).sum = 9 - 1 ∧
      (station.increases series (deliveries series [1, 9, 2, 4])).sum =
        (station.increases series (deliveries series [1, 4, 2, 9, 9])).sum := by
  intro station series
  have hv : Monotone (fun time : Nat => (time : Rat)) := Nat.mono_cast
  have h : Delivers (fun time : Nat => (time : Rat)) series station
      (deliveries series [1, 4, 2, 9, 9]) [1, 4, 2, 9, 9] :=
    ⟨rfl, by refine ⟨?_, ?_, ?_, ?_, ?_, trivial⟩ <;> decide +kernel, by decide +kernel⟩
  have h' : Delivers (fun time : Nat => (time : Rat)) series station
      (deliveries series [1, 9, 2, 4]) [1, 9, 2, 4] :=
    ⟨rfl, by refine ⟨?_, ?_, ?_, ?_, trivial⟩ <;> decide +kernel, by decide +kernel⟩
  obtain ⟨htotal, -, hother, -⟩ := delivery_order_is_irrelevant hv h
  have hsame (time : Nat) : time ∈ [1, 9, 2, 4] ↔ time ∈ [1, 4, 2, 9, 9] := by
    simp only [List.mem_cons, List.not_mem_nil, or_false]
    omega
  exact ⟨htotal 1 9 rfl rfl, hother h' rfl hsame⟩

end Station

end MetricPoints
