import MetricPoints.Proofs.Channels
import MetricPoints.Proofs.Observed

/-
  Trackers that hold the same values at the same times. What a sample means depends on nothing
  else, so alike trackers give the same outcomes and stay alike, whatever their clocks read
  (`Alike.run`), and alike converters turn batches into the same points, reports, problems and
  events from then on (`Converter.Alike.convertEach`).
-/

namespace MetricPoints

variable {V : Type}

/-- What an observation sees of an entry: its value and the time of it. -/
def Entry.stored (entry : Entry V) : Observation V := ⟨entry.time, entry.value⟩

namespace Tracker

/-- The value that is stored of a series, with its time. -/
def stored? (tracker : Tracker V) (series : Series) : Option (Observation V) :=
  (tracker.entries.get? series).map Entry.stored

/-- What is stored after an observation: a late one is ignored. -/
def storedAfter (stored : Option (Observation V)) (o : Observation V) : Observation V :=
  match stored with
  | none => o
  | some held => if o.time ≤ held.time then held else o

theorem stored_entryAfter (now : Nat) (known : Option (Entry V)) (time : Nat) (value : V) :
    (entryAfter now known time value).stored =
      storedAfter (known.map Entry.stored) ⟨time, value⟩ := by
  cases known with
  | none => rfl
  | some entry =>
    simp only [entryAfter, storedAfter, Option.map_some, Entry.stored]
    split <;> rfl

theorem stored?_submit (tracker : Tracker V) (now : Nat) (sample : Sample V) (series : Series) :
    (tracker.submit now sample).stored? series =
      if series = sample.series then
        some (storedAfter (tracker.stored? series) sample.observation)
      else tracker.stored? series := by
  rw [stored?, get?_submit]
  split
  · rw [Option.map_some, stored_entryAfter]
    rfl
  · rfl

/-- A change in terms of what is stored. -/
theorem changeFor_eq (tracker : Tracker V) (sample : Sample V) :
    tracker.changeFor sample =
      match tracker.stored? sample.series with
      | none => .baseline
      | some held =>
        if sample.time ≤ held.time then .late
        else .step held.value sample.value (sample.time - held.time) := by
  rw [changeFor, stored?]
  cases tracker.entries.get? sample.series with
  | none => rfl
  | some entry => rfl

/-- A newer sample means a step from what is stored. -/
theorem changeFor_of_stored {tracker : Tracker V} (sample : Sample V) {time : Nat} {value : V}
    (h : tracker.stored? sample.series = some ⟨time, value⟩) (ht : time < sample.time) :
    tracker.changeFor sample = .step value sample.value (sample.time - time) := by
  rw [changeFor_eq, h]
  exact if_neg (Nat.not_le_of_lt ht)

/-- A sweep keeps what is stored of a series or drops it. -/
theorem stored?_sweep (tracker : Tracker V) (now : Nat) (series : Series) :
    (tracker.sweep now).stored? series = tracker.stored? series ∨
      (tracker.sweep now).stored? series = none := by
  rw [stored?, get?_sweep, stored?]
  cases tracker.entries.get? series with
  | none => exact .inl rfl
  | some entry =>
    rw [Option.filter_some]
    split
    · exact .inl rfl
    · exact .inr rfl

/-- All that is stored of any series has a property. -/
def AllStored (tracker : Tracker V) (P : Series → Observation V → Prop) : Prop :=
  ∀ series held, tracker.stored? series = some held → P series held

namespace AllStored

variable {P Q : Series → Observation V → Prop} {tracker : Tracker V}

theorem empty (P : Series → Observation V → Prop) (ttl : Nat) :
    (Tracker.empty ttl).AllStored P :=
  fun _ _ h => absurd h (by simp [stored?, Tracker.empty])

theorem mono (h : tracker.AllStored P) (hle : ∀ series held, P series held → Q series held) :
    tracker.AllStored Q :=
  fun series held hs => hle series held (h series held hs)

theorem submit (h : tracker.AllStored P) (now : Nat) {sample : Sample V}
    (hp : P sample.series sample.observation) : (tracker.submit now sample).AllStored P := by
  intro series held hs
  rw [stored?_submit] at hs
  split at hs
  · rename_i hseries
    cases hs
    rw [hseries]
    unfold storedAfter
    split
    · exact hp
    · rename_i stored hstored
      split
      · exact h _ stored hstored
      · exact hp
  · exact h series held hs

theorem observeAll (h : tracker.AllStored P) (now : Nat) {samples : List (Sample V)}
    (hp : ∀ sample ∈ samples, P sample.series sample.observation) :
    (tracker.observeAll now samples).2.AllStored P := by
  induction samples generalizing tracker with
  | nil => exact h
  | cons sample rest ih =>
    obtain ⟨hs, hr⟩ := List.forall_mem_cons.mp hp
    exact ih (h.submit now hs) hr

theorem sweep (h : tracker.AllStored P) (now : Nat) : (tracker.sweep now).AllStored P := by
  intro series held hs
  rcases tracker.stored?_sweep now series with hk | hk
  · exact h series held (hk ▸ hs)
  · exact nomatch hk.symm.trans hs

end AllStored

/-- Two trackers that hold the same values at the same times. -/
def Alike (tracker other : Tracker V) : Prop :=
  ∀ series, tracker.stored? series = other.stored? series

namespace Alike

variable {tracker other third : Tracker V}

theorem refl (tracker : Tracker V) : tracker.Alike tracker := fun _ => rfl

theorem symm (h : tracker.Alike other) : other.Alike tracker := fun series => (h series).symm

theorem trans (h : tracker.Alike other) (h' : other.Alike third) : tracker.Alike third :=
  fun series => (h series).trans (h' series)

theorem changeFor (h : tracker.Alike other) (sample : Sample V) :
    tracker.changeFor sample = other.changeFor sample := by
  rw [changeFor_eq, changeFor_eq, h]

theorem submit (h : tracker.Alike other) (now now' : Nat) (sample : Sample V) :
    (tracker.submit now sample).Alike (other.submit now' sample) := by
  intro series
  rw [stored?_submit, stored?_submit, h]

theorem respects (now now' : Nat) (sample : Sample V) :
    sample.Respects Tracker.Alike now now' where
  changeFor h := h.changeFor sample
  submit h := h.submit now now' sample

variable [Amount V]

/-- Alike trackers give the same outcome and stay alike. -/
theorem run (h : tracker.Alike other) (now now' : Nat) (plan : Plan V) :
    (Plan.run now plan tracker).1 = (Plan.run now' plan other).1 ∧
      (Plan.run now plan tracker).2.Alike (Plan.run now' plan other).2 :=
  Plan.run_of_respects (fun sample _ => respects now now' sample) h

end Alike

end Tracker

namespace Converter

variable [Amount V]

/-- Turns batch after batch into points, each while the clock shows the reading beside it. -/
def convertEach (converter : Converter V) :
    List (Nat × Batch V) → List (Converted V) × Converter V
  | [] => ([], converter)
  | (now, batch) :: rest =>
    let first := converter.convert now batch
    let more := first.2.convertEach rest
    (first.1 :: more.1, more.2)

theorem snd_convertEach_append (converter : Converter V) (batches more : List (Nat × Batch V)) :
    (converter.convertEach (batches ++ more)).2 =
      ((converter.convertEach batches).2.convertEach more).2 := by
  induction batches generalizing converter with
  | nil => rfl
  | cons timed rest ih => exact ih _

@[simp] theorem settings_convertEach (converter : Converter V) (batches : List (Nat × Batch V)) :
    (converter.convertEach batches).2.settings = converter.settings := by
  induction batches generalizing converter with
  | nil => rfl
  | cons timed rest ih => exact (ih _).trans (converter.settings_convert _ _)

/-- Two converters that differ at most in their counters and in when series were last observed. -/
structure Alike (converter other : Converter V) : Prop where
  settings : converter.settings = other.settings
  observer : converter.observer = other.observer
  tracker : converter.tracker.Alike other.tracker

namespace Alike

variable {converter other : Converter V}

theorem convert (h : converter.Alike other) (now now' : Nat) (batch : Batch V) :
    (converter.convert now batch).1 = (other.convert now' batch).1 ∧
      (converter.convert now batch).2.Alike (other.convert now' batch).2 := by
  obtain ⟨ho, ha⟩ := h.tracker.run now now' (Batch.plan other.settings batch)
  refine ⟨?_, ?_, ?_, ?_⟩
  · rw [fst_convert, fst_convert, h.settings, ho]
    exact shown_congr h.observer _
  · rw [settings_convert, settings_convert, h.settings]
  · rw [observer_convert, observer_convert, h.observer]
  · rw [tracker_convert_eq_run, tracker_convert_eq_run, h.settings]
    exact ha

/-- Alike converters agree on every later batch. -/
theorem convertEach (h : converter.Alike other) (batches : List (Nat × Batch V)) :
    (converter.convertEach batches).1 = (other.convertEach batches).1 := by
  induction batches generalizing converter other with
  | nil => rfl
  | cons timed rest ih =>
    obtain ⟨hc, ha⟩ := h.convert timed.1 timed.1 timed.2
    show _ :: _ = _ :: _
    rw [hc, ih ha]

end Alike

end Converter

end MetricPoints
