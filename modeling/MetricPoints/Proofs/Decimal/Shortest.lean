import Mathlib.Algebra.Order.Field.Rat
import Mathlib.Data.Rat.Cast.Order
import Mathlib.Tactic.FieldSimp
import Mathlib.Tactic.Linarith
import Mathlib.Tactic.Positivity
import Mathlib.Tactic.Ring
import MetricPoints.Proofs.Decimal.Positional

/-
  The shortest decimal lies in the cell of its number. A grid with a point less than half a step
  from either end of the cell has a point in it (`nearest?_ne_none`), and seventeen digits make
  such a grid (`contains_shortest`).

  The cells of the numbers with the bits `0, 1, 2, …` tile the line: one begins where the one
  before it ends (`highEnd_cellOf`), and of two neighbours exactly one holds the end they share,
  because ends are held for even mantissas only. So no real is in two of them
  (`eq_of_contains`).
-/

namespace MetricPoints.Decimal.Cell

/-- Where the cell begins. -/
def lowEnd (cell : Cell) : Rat := (cell.low : Rat) / cell.unit

/-- The number the cell is of. -/
def middle (cell : Cell) : Rat := (cell.mid : Rat) / cell.unit

/-- Where the cell ends. -/
def highEnd (cell : Cell) : Rat := (cell.high : Rat) / cell.unit

/-- Says whether a number is in the cell. -/
def Contains (cell : Cell) (v : Rat) : Prop :=
  if cell.closed then cell.lowEnd ≤ v ∧ v ≤ cell.highEnd else cell.lowEnd < v ∧ v < cell.highEnd

theorem Contains.le {cell : Cell} {v : Rat} (h : cell.Contains v) :
    cell.lowEnd ≤ v ∧ v ≤ cell.highEnd := by
  unfold Contains at h
  split at h
  · exact h
  · exact ⟨h.1.le, h.2.le⟩

theorem Contains.lt {cell : Cell} {v : Rat} (h : cell.Contains v) (ho : cell.closed = false) :
    cell.lowEnd < v ∧ v < cell.highEnd := by
  simpa [Contains, ho] using h

theorem ten_zpow_eq (grid : Int) :
    (10 : Rat) ^ grid = 10 ^ grid.toNat / 10 ^ (-grid).toNat := by
  rcases le_or_gt 0 grid with h | h
  · rw [show (-grid).toNat = 0 by omega, pow_zero, div_one, ← zpow_natCast,
      Int.toNat_of_nonneg h]
  · rw [show grid.toNat = 0 by omega, pow_zero, one_div, ← zpow_natCast, ← zpow_neg,
      Int.toNat_of_nonneg (by omega), neg_neg]

/-- Grid points that a cell holds in grid units are in it. -/
theorem contains_of_holds_scale {cell : Cell} (hu : 0 < cell.unit) {grid : Int} {k : Nat}
    (h : (cell.scale grid).holds k = true) : cell.Contains ((k : Rat) * 10 ^ grid) := by
  have hunit : (0 : Rat) < cell.unit := by exact_mod_cast hu
  have hfine : (0 : Rat) < 10 ^ (-grid).toNat := by positivity
  have hvalue : (k : Rat) * 10 ^ grid =
      (k : Rat) * (10 ^ grid.toNat) / 10 ^ (-grid).toNat := by
    rw [ten_zpow_eq, mul_div_assoc]
  have hlow (a : Nat) : (a : Rat) / cell.unit ≤ k * 10 ^ grid ↔
      a * 10 ^ (-grid).toNat ≤ k * (cell.unit * 10 ^ grid.toNat) := by
    rw [hvalue, div_le_div_iff₀ hunit hfine, ← Nat.cast_le (α := Rat)]
    push_cast
    rw [show (k : Rat) * 10 ^ grid.toNat * cell.unit = k * (cell.unit * 10 ^ grid.toNat) by ring]
  have hhigh (a : Nat) : k * 10 ^ grid ≤ (a : Rat) / cell.unit ↔
      k * (cell.unit * 10 ^ grid.toNat) ≤ a * 10 ^ (-grid).toNat := by
    rw [hvalue, div_le_div_iff₀ hfine hunit, ← Nat.cast_le (α := Rat)]
    push_cast
    rw [show (k : Rat) * 10 ^ grid.toNat * cell.unit = k * (cell.unit * 10 ^ grid.toNat) by ring]
  unfold holds scale at h
  unfold Contains lowEnd highEnd
  split at h
  · rename_i hc
    rw [Bool.and_eq_true, decide_eq_true_eq, decide_eq_true_eq] at h
    rw [if_pos hc, hlow, hhigh]
    exact h
  · rename_i hc
    rw [Bool.and_eq_true, decide_eq_true_eq, decide_eq_true_eq] at h
    rw [if_neg hc, ← not_le, ← not_le, hlow, hhigh, not_le, not_le]
    exact h

/-- A grid has a point in the cell when both ends are more than half a step from the middle. -/
theorem nearest?_ne_none {cell : Cell} (hu : 0 < cell.unit)
    (hl : 2 * cell.low + cell.unit < 2 * cell.mid)
    (hh : 2 * cell.mid + cell.unit < 2 * cell.high) : cell.nearest? ≠ none := by
  have hdiv := Nat.div_add_mod cell.mid cell.unit
  have hmod := Nat.mod_lt cell.mid hu
  have holds_of {k : Nat} (h₁ : cell.low < k * cell.unit) (h₂ : k * cell.unit < cell.high) :
      cell.holds k = true := by
    unfold holds
    split
    · exact Bool.and_eq_true _ _ ▸ ⟨decide_eq_true h₁.le, decide_eq_true h₂.le⟩
    · exact Bool.and_eq_true _ _ ▸ ⟨decide_eq_true h₁, decide_eq_true h₂⟩
  have hbelow : cell.mid / cell.unit * cell.unit = cell.unit * (cell.mid / cell.unit) :=
    Nat.mul_comm _ _
  have hsome : cell.holds (cell.mid / cell.unit) = true ∨
      cell.holds (cell.mid / cell.unit + 1) = true := by
    by_cases hr : 2 * (cell.mid % cell.unit) ≤ cell.unit
    · left
      apply holds_of
      · omega
      · omega
    · right
      apply holds_of
      · rw [Nat.add_mul, Nat.one_mul]
        omega
      · rw [Nat.add_mul, Nat.one_mul]
        omega
  intro hnone
  unfold nearest? at hnone
  dsimp only at hnone
  rcases hsome with h | h
  · rw [h] at hnone
    generalize cell.holds (cell.mid / cell.unit + 1) = other at hnone
    cases other <;> simp at hnone
  · rw [h] at hnone
    generalize cell.holds (cell.mid / cell.unit) = other at hnone
    cases other <;> simp at hnone

theorem length_repr_eq (n : Nat) : n.repr.length = (Nat.toDigits 10 n).length := by
  rw [← Nat.toList_repr, String.length_toList]

theorem length_repr_pos (n : Nat) : 0 < n.repr.length := by
  rw [length_repr_eq]
  exact Nat.length_toDigits_pos

theorem pow_length_repr_le {n : Nat} (h : 0 < n) : 10 ^ (n.repr.length - 1) ≤ n := by
  rw [length_repr_eq]
  by_cases hone : (Nat.toDigits 10 n).length ≤ 1
  · rw [Nat.sub_eq_zero_of_le hone]
    exact h
  · by_contra hlt
    have := (Nat.length_toDigits_le_iff (by decide) (by omega)).mpr (Nat.lt_of_not_le hlt)
    omega

theorem lt_pow_length_repr (n : Nat) : n < 10 ^ n.repr.length := by
  rw [length_repr_eq]
  exact (Nat.length_toDigits_le_iff (by decide) Nat.length_toDigits_pos).mp (Nat.le_refl _)

/-- The magnitude is a lower bound for the middle. -/
theorem zpow_magnitude_le {cell : Cell} (hu : 0 < cell.unit) (hm : 0 < cell.mid) :
    (10 : Rat) ^ (cell.magnitude - 1) ≤ cell.middle := by
  have hunit : (0 : Rat) < cell.unit := by exact_mod_cast hu
  unfold magnitude middle
  by_cases hle : cell.unit ≤ cell.mid
  · rw [if_pos hle]
    have hq : 0 < cell.mid / cell.unit := Nat.div_pos hle hu
    have hlen := pow_length_repr_le hq
    have hpos := length_repr_pos (cell.mid / cell.unit)
    rw [show ((cell.mid / cell.unit).repr.length : Int) - 1 =
      (((cell.mid / cell.unit).repr.length - 1 : Nat) : Int) by omega, zpow_natCast,
      le_div_iff₀ hunit]
    have hmul := Nat.mul_le_mul_right cell.unit hlen
    have := Nat.le_trans hmul (Nat.div_mul_le_self cell.mid cell.unit)
    exact_mod_cast this
  · rw [if_neg hle]
    dsimp only
    split
    · rename_i heq
      have hpos := length_repr_pos (cell.unit / cell.mid)
      have hten : (0 : Rat) < 10 ^ ((cell.unit / cell.mid).repr.length - 1) := by positivity
      rw [show 2 - ((cell.unit / cell.mid).repr.length : Int) - 1 =
        -(((cell.unit / cell.mid).repr.length - 1 : Nat) : Int) by omega, zpow_neg, zpow_natCast,
        inv_eq_one_div, div_le_div_iff₀ hten hunit, one_mul]
      exact_mod_cast heq.ge
    · have hten : (0 : Rat) < 10 ^ (cell.unit / cell.mid).repr.length := by positivity
      rw [show 1 - ((cell.unit / cell.mid).repr.length : Int) - 1 =
        -((cell.unit / cell.mid).repr.length : Int) by omega, zpow_neg, zpow_natCast,
        inv_eq_one_div, div_le_div_iff₀ hten hunit, one_mul]
      have hup : cell.unit < cell.mid * (cell.unit / cell.mid + 1) := Nat.lt_mul_div_succ _ hm
      have hlen := Nat.mul_le_mul_left cell.mid (lt_pow_length_repr (cell.unit / cell.mid))
      exact_mod_cast Nat.le_trans hup.le hlen

/-- The grid of seventeen digits. -/
def finest (cell : Cell) : Int := cell.magnitude - ((17 : Nat) : Int)

/-- At seventeen digits a step of the grid is less than `middle / 10 ^ 16`. -/
theorem step_finest_le {cell : Cell} (hu : 0 < cell.unit) (hm : 0 < cell.mid) :
    cell.unit * 10 ^ cell.finest.toNat * 10 ^ 16 ≤ cell.mid * 10 ^ (-cell.finest).toNat := by
  have hunit : (0 : Rat) < cell.unit := by exact_mod_cast hu
  have hfine : (0 : Rat) < 10 ^ (-cell.finest).toNat := by positivity
  have h := zpow_magnitude_le hu hm
  have hz : (10 : Rat) ^ (cell.magnitude - 1) = 10 ^ cell.finest * 10 ^ 16 := by
    rw [← zpow_natCast, ← zpow_add₀ (by norm_num)]
    congr 1
    show cell.magnitude - 1 = cell.magnitude - ((17 : Nat) : Int) + ((16 : Nat) : Int)
    omega
  rw [hz, ten_zpow_eq, middle, div_mul_eq_mul_div, div_le_div_iff₀ hfine hunit] at h
  have hnat : 10 ^ cell.finest.toNat * 10 ^ 16 * cell.unit ≤
      cell.mid * 10 ^ (-cell.finest).toNat := by
    exact_mod_cast h
  calc cell.unit * 10 ^ cell.finest.toNat * 10 ^ 16
      = 10 ^ cell.finest.toNat * 10 ^ 16 * cell.unit := by ring
    _ ≤ _ := hnat

/-- Points of a cell that are wide apart are more than half a step of that grid apart. -/
theorem half_step_lt {cell : Cell} (hu : 0 < cell.unit) (hm : 0 < cell.mid) {a b : Nat}
    (hab : a < b) (h : cell.mid < 2 * 10 ^ 16 * (b - a)) :
    2 * (a * 10 ^ (-cell.finest).toNat) + cell.unit * 10 ^ cell.finest.toNat <
      2 * (b * 10 ^ (-cell.finest).toNat) := by
  have hfine : 0 < 10 ^ (-cell.finest).toNat := by positivity
  have hstep : cell.unit * 10 ^ cell.finest.toNat <
      2 * (b - a) * 10 ^ (-cell.finest).toNat := by
    have : cell.unit * 10 ^ cell.finest.toNat * 10 ^ 16 <
        2 * (b - a) * 10 ^ (-cell.finest).toNat * 10 ^ 16 := by
      calc cell.unit * 10 ^ cell.finest.toNat * 10 ^ 16
          ≤ cell.mid * 10 ^ (-cell.finest).toNat := step_finest_le hu hm
        _ < 2 * 10 ^ 16 * (b - a) * 10 ^ (-cell.finest).toNat :=
          Nat.mul_lt_mul_of_pos_right h hfine
        _ = 2 * (b - a) * 10 ^ (-cell.finest).toNat * 10 ^ 16 := by ring
    exact Nat.lt_of_mul_lt_mul_right this
  obtain ⟨d, rfl⟩ := Nat.exists_eq_add_of_lt hab
  rw [show a + d + 1 - a = d + 1 by omega] at hstep
  calc 2 * (a * 10 ^ (-cell.finest).toNat) + cell.unit * 10 ^ cell.finest.toNat
      < 2 * (a * 10 ^ (-cell.finest).toNat) + 2 * (d + 1) * 10 ^ (-cell.finest).toNat := by
        omega
    _ = 2 * ((a + d + 1) * 10 ^ (-cell.finest).toNat) := by ring

/-- The shortest decimal is in the cell, when the cell is wide enough for seventeen digits. -/
theorem contains_shortest {cell : Cell} (hu : 0 < cell.unit) (hm : 0 < cell.mid)
    (hl : cell.mid < 2 * 10 ^ 16 * (cell.mid - cell.low))
    (hh : cell.mid < 2 * 10 ^ 16 * (cell.high - cell.mid)) :
    cell.Contains cell.shortest.value := by
  have hfinest : (cell.scale cell.finest).nearest? ≠ none := by
    apply nearest?_ne_none
    · show 0 < cell.unit * 10 ^ cell.finest.toNat
      positivity
    · exact half_step_lt hu hm (by omega) hl
    · exact half_step_lt hu hm (by omega) hh
  unfold shortest
  dsimp only
  cases hfound : (List.range 18).findSome? fun i : Nat =>
      ((cell.scale (cell.magnitude - (i : Int))).nearest?).map
        (⟨·, cell.magnitude - (i : Int)⟩ : Nat → Digits) with
  | none =>
    have := List.findSome?_eq_none_iff.mp hfound 17 (by decide)
    exact absurd (Option.map_eq_none_iff.mp this) hfinest
  | some d =>
    obtain ⟨i, -, hi⟩ := List.exists_of_findSome?_eq_some hfound
    obtain ⟨k, hk, rfl⟩ := Option.map_eq_some_iff.mp hi
    exact contains_of_holds_scale hu (holds_of_nearest? hk)

theorem unit_ofBinary_pos (mantissa : Nat) (exponent : Int) (narrow : Bool) :
    0 < (ofBinary mantissa exponent narrow).unit :=
  Nat.two_pow_pos _

theorem two_zpow_eq (e : Int) : (2 : Rat) ^ e = 2 ^ e.toNat / 2 ^ (-e).toNat := by
  rcases le_or_gt 0 e with h | h
  · rw [show (-e).toNat = 0 by omega, pow_zero, div_one, ← zpow_natCast, Int.toNat_of_nonneg h]
  · rw [show e.toNat = 0 by omega, pow_zero, one_div, ← zpow_natCast, ← zpow_neg,
      Int.toNat_of_nonneg (by omega), neg_neg]

/-- Where the cell of a number begins, in quarters of its last place. -/
theorem lowEnd_ofBinary (mantissa : Nat) (exponent : Int) (narrow : Bool) :
    (ofBinary mantissa exponent narrow).lowEnd =
      ((4 * mantissa - if narrow then 1 else 2 : Nat) : Rat) * 2 ^ (exponent - 2) := by
  rw [two_zpow_eq, neg_sub]
  unfold lowEnd ofBinary
  simp only [Nat.pow_eq]
  push_cast
  rw [mul_div_assoc]

theorem highEnd_ofBinary (mantissa : Nat) (exponent : Int) (narrow : Bool) :
    (ofBinary mantissa exponent narrow).highEnd =
      ((4 * mantissa + 2 : Nat) : Rat) * 2 ^ (exponent - 2) := by
  rw [two_zpow_eq, neg_sub]
  unfold highEnd ofBinary
  simp only [Nat.pow_eq]
  push_cast
  rw [mul_div_assoc]

/-- Seventeen digits are enough for 53 bits. Below a power of two, where the cell is narrow, the
mantissa is the smallest one. -/
theorem contains_shortest_ofBinary {mantissa : Nat} (exponent : Int) {narrow : Bool}
    (hpos : 0 < mantissa) (hlt : mantissa < 2 ^ 53) (hn : narrow = true → mantissa = 2 ^ 52) :
    (ofBinary mantissa exponent narrow).Contains
      (ofBinary mantissa exponent narrow).shortest.value := by
  have hup : 0 < 2 ^ (exponent - 2).toNat := Nat.two_pow_pos _
  apply contains_shortest (unit_ofBinary_pos mantissa exponent narrow)
  · exact Nat.mul_pos (by omega) hup
  · show 4 * mantissa * 2 ^ (exponent - 2).toNat <
      2 * 10 ^ 16 * (4 * mantissa * 2 ^ (exponent - 2).toNat -
        (4 * mantissa - if narrow then 1 else 2) * 2 ^ (exponent - 2).toNat)
    rw [← Nat.sub_mul, ← Nat.mul_assoc]
    apply Nat.mul_lt_mul_of_pos_right _ hup
    cases narrow with
    | true =>
      rw [hn rfl]
      norm_num
    | false =>
      simp only [Bool.false_eq_true, if_false]
      omega
  · show 4 * mantissa * 2 ^ (exponent - 2).toNat <
      2 * 10 ^ 16 * ((4 * mantissa + 2) * 2 ^ (exponent - 2).toNat -
        4 * mantissa * 2 ^ (exponent - 2).toNat)
    rw [← Nat.sub_mul, ← Nat.mul_assoc]
    apply Nat.mul_lt_mul_of_pos_right _ hup
    omega

/-- The cell of a finite number, from its biased exponent and its fraction bits. -/
def cellAt (biased fraction : Nat) : Cell :=
  if biased = 0 then ofBinary fraction (-1074) false
  else ofBinary (2 ^ 52 + fraction) ((biased : Int) - 1075) (fraction = 0 && 1 < biased)

theorem contains_shortest_cellAt {biased fraction : Nat} (hf : fraction < 2 ^ 52)
    (h : biased ≠ 0 ∨ fraction ≠ 0) :
    (cellAt biased fraction).Contains (cellAt biased fraction).shortest.value := by
  unfold cellAt
  split
  · exact contains_shortest_ofBinary _ (by omega) (by omega) (by simp)
  · apply contains_shortest_ofBinary _ (by omega) (by omega)
    intro hn
    rw [Bool.and_eq_true, decide_eq_true_eq] at hn
    rw [hn.1, Nat.add_zero]

theorem contains_zero : (cellAt 0 0).Contains 0 := by
  show (ofBinary 0 (-1074) false).lowEnd ≤ 0 ∧ 0 ≤ (ofBinary 0 (-1074) false).highEnd
  rw [lowEnd_ofBinary, highEnd_ofBinary]
  refine ⟨?_, ?_⟩
  · simp
  · exact mul_nonneg (Nat.cast_nonneg _) (zpow_nonneg (by norm_num) _)

theorem highEnd_cellAt (biased fraction : Nat) :
    (cellAt biased fraction).highEnd = (cellAt biased (fraction + 1)).lowEnd := by
  unfold cellAt
  split
  · rw [highEnd_ofBinary, lowEnd_ofBinary]
    simp only [Bool.false_eq_true, if_false]
    congr 2
  · rw [highEnd_ofBinary, lowEnd_ofBinary]
    simp only [Nat.add_eq_zero_iff, one_ne_zero, and_false, decide_false, Bool.false_and,
      Bool.false_eq_true, if_false]
    congr 2

/-- The last number with one exponent and the first with the next one. -/
theorem highEnd_cellAt_last (biased : Nat) :
    (cellAt biased (2 ^ 52 - 1)).highEnd = (cellAt (biased + 1) 0).lowEnd := by
  unfold cellAt
  rw [if_neg (Nat.succ_ne_zero biased)]
  by_cases h : biased = 0
  · subst h
    rw [if_pos rfl, highEnd_ofBinary, lowEnd_ofBinary]
    norm_num
  · have hnarrow : (decide ((0 : Nat) = 0) && decide (1 < biased + 1)) = true := by
      simp [Nat.pos_of_ne_zero h]
    rw [if_neg h, highEnd_ofBinary, lowEnd_ofBinary, hnarrow, if_pos rfl,
      show ((biased + 1 : Nat) : Int) - 1075 - 2 = ((biased : Int) - 1075 - 2) + 1 by omega,
      zpow_add_one₀ (by norm_num)]
    norm_num
    ring

/-- The cell of the finite number with these bits, which has no sign. -/
def cellOf (bits : Nat) : Cell := cellAt (bits / 2 ^ 52) (bits % 2 ^ 52)

/-- A cell ends where the next one begins. -/
theorem highEnd_cellOf (bits : Nat) : (cellOf bits).highEnd = (cellOf (bits + 1)).lowEnd := by
  have hdiv := Nat.div_add_mod bits (2 ^ 52)
  have hmod := Nat.mod_lt bits (Nat.two_pow_pos 52)
  unfold cellOf
  by_cases h : bits % 2 ^ 52 + 1 < 2 ^ 52
  · rw [show (bits + 1) / 2 ^ 52 = bits / 2 ^ 52 by omega,
      show (bits + 1) % 2 ^ 52 = bits % 2 ^ 52 + 1 by omega]
    exact highEnd_cellAt _ _
  · rw [show (bits + 1) / 2 ^ 52 = bits / 2 ^ 52 + 1 by omega,
      show (bits + 1) % 2 ^ 52 = 0 by omega, show bits % 2 ^ 52 = 2 ^ 52 - 1 by omega]
    exact highEnd_cellAt_last _

theorem lowEnd_lt_highEnd_cellOf (bits : Nat) : (cellOf bits).lowEnd < (cellOf bits).highEnd := by
  have hpos (m : Nat) (e : Int) (narrow : Bool) :
      (ofBinary m e narrow).lowEnd < (ofBinary m e narrow).highEnd := by
    rw [lowEnd_ofBinary, highEnd_ofBinary]
    apply mul_lt_mul_of_pos_right
    · have : (4 * m - if narrow then 1 else 2) < 4 * m + 2 := by split <;> omega
      exact_mod_cast this
    · exact zpow_pos (by norm_num) _
  unfold cellOf cellAt
  split
  · exact hpos _ _ _
  · exact hpos _ _ _

theorem lowEnd_cellOf_strictMono : StrictMono fun bits => (cellOf bits).lowEnd :=
  strictMono_nat_of_lt_succ fun bits => by
    rw [← highEnd_cellOf]
    exact lowEnd_lt_highEnd_cellOf bits

/-- A cell holds its ends exactly for even bits. -/
theorem closed_cellOf (bits : Nat) : (cellOf bits).closed = decide (bits % 2 = 0) := by
  unfold cellOf cellAt
  split
  · show decide (bits % 2 ^ 52 % 2 = 0) = _
    rw [Nat.mod_mod_of_dvd bits (by decide)]
  · show decide ((2 ^ 52 + bits % 2 ^ 52) % 2 = 0) = _
    congr 2
    omega

theorem not_contains_of_lt {a b : Nat} (h : a < b) {v : Rat} (ha : (cellOf a).Contains v) :
    ¬ (cellOf b).Contains v := by
  intro hb
  have hmono : (cellOf (a + 1)).lowEnd ≤ (cellOf b).lowEnd :=
    lowEnd_cellOf_strictMono.monotone h
  have hend := highEnd_cellOf a
  have hva := ha.le.2
  have hvb := hb.le.1
  have hnext : b = a + 1 := by
    by_contra hne
    have : (cellOf (a + 1)).lowEnd < (cellOf b).lowEnd := lowEnd_cellOf_strictMono (by omega)
    linarith
  subst hnext
  -- the end they share is in one of them only
  by_cases he : a % 2 = 0
  · have hopen : (cellOf (a + 1)).closed = false := by
      rw [closed_cellOf]
      exact decide_eq_false (by omega)
    have := (hb.lt hopen).1
    linarith
  · have hopen : (cellOf a).closed = false := by
      rw [closed_cellOf]
      exact decide_eq_false he
    have := (ha.lt hopen).2
    linarith

/-- No real is in the cells of two numbers. -/
theorem eq_of_contains {a b : Nat} {v : Rat} (ha : (cellOf a).Contains v)
    (hb : (cellOf b).Contains v) : a = b := by
  rcases Nat.lt_trichotomy a b with h | h | h
  · exact absurd hb (not_contains_of_lt h ha)
  · exact h
  · exact absurd ha (not_contains_of_lt h hb)

end MetricPoints.Decimal.Cell
