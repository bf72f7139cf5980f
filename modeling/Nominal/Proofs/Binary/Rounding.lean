import Mathlib.Algebra.Order.Field.Rat
import Mathlib.Data.Nat.Cast.Order.Field
import Mathlib.Tactic.FieldSimp
import Mathlib.Tactic.NormNum
import Mathlib.Tactic.Positivity
import Nominal.Proofs.Binary.Units

/-! Rounding to the nearest magnitude. A number of units may be any rational number, and infinity
counts as the power of two that follows the greatest finite number. The magnitude that a number
rounds to is the closest one, and the even one of two that are equally close. There is exactly
one, and it lies between the midpoints to its neighbours, so that a number between a magnitude
and another number that rounds to it rounds to it as well. -/

namespace Nominal

section Midpoint

variable {a b u : ℚ} (less : a < b)
include less

theorem upper_closer_iff : |u - b| ≤ |u - a| ↔ a + b ≤ 2 * u := by
  rw [← sq_le_sq, ← sub_nonneg]
  have product : (u - a) ^ 2 - (u - b) ^ 2 = (b - a) * (2 * u - (a + b)) := by ring
  rw [product, mul_nonneg_iff_of_pos_left (sub_pos.mpr less), sub_nonneg]

theorem lower_closer_iff : |u - a| ≤ |u - b| ↔ 2 * u ≤ a + b := by
  rw [← sq_le_sq, ← sub_nonneg]
  have product : (u - b) ^ 2 - (u - a) ^ 2 = (b - a) * (a + b - 2 * u) := by ring
  rw [product, mul_nonneg_iff_of_pos_left (sub_pos.mpr less), sub_nonneg]

theorem equally_close_iff : |u - a| = |u - b| ↔ 2 * u = a + b := by
  rw [le_antisymm_iff, le_antisymm_iff, lower_closer_iff less, upper_closer_iff less]

end Midpoint

namespace FloatFormat

variable (f : FloatFormat)

/-- A magnitude is closest to a number of units, and even if another one is as close. -/
structure IsNearest (u : ℚ) (m : Nat) : Prop where
  bounded : m ≤ f.infinite
  closest : ∀ n ≤ f.infinite, |u - f.units m| ≤ |u - f.units n|
  even : ∀ n ≤ f.infinite, n ≠ m → |u - f.units n| = |u - f.units m| → Even m

/-- A number of units lies between the midpoints to the neighbours of a magnitude, and on one of
them only if the magnitude is even. -/
structure Surrounds (u : ℚ) (m : Nat) : Prop where
  bounded : m ≤ f.infinite
  low : ∀ n, m = n + 1 → (f.units n + f.units m : ℚ) ≤ 2 * u ∧
    (2 * u = f.units n + f.units m → Even m)
  high : m < f.infinite → 2 * u ≤ f.units m + f.units (m + 1) ∧
    (2 * u = f.units m + f.units (m + 1) → Even m)

variable {f}

theorem units_cast_strictMono : StrictMono fun m => (f.units m : ℚ) :=
  Nat.strictMono_cast.comp f.units_strictMono

variable {u v : ℚ} {m n : Nat}

theorem units_cast_lt (less : m < n) : (f.units m : ℚ) < f.units n := units_cast_strictMono less

theorem units_cast_le (le : m ≤ n) : (f.units m : ℚ) ≤ f.units n :=
  units_cast_strictMono.monotone le

theorem IsNearest.surrounds (nearest : f.IsNearest u m) : f.Surrounds u m := by
  have room := nearest.bounded
  refine ⟨room, ?_, fun finite => ?_⟩
  · rintro n rfl
    have less := units_cast_lt (f := f) n.lt_succ_self
    exact ⟨(upper_closer_iff less).mp (nearest.closest n (by omega)), fun tie =>
      nearest.even n (by omega) (by omega) ((equally_close_iff less).mpr tie)⟩
  · have less := units_cast_lt (f := f) m.lt_succ_self
    exact ⟨(lower_closer_iff less).mp (nearest.closest _ finite), fun tie =>
      nearest.even (m + 1) finite (by omega) ((equally_close_iff less).mpr tie).symm⟩

theorem Surrounds.isNearest (around : f.Surrounds u m) : f.IsNearest u m := by
  have key (n : Nat) (room : n ≤ f.infinite) (other : n ≠ m) : |u - f.units m| ≤ |u - f.units n| ∧
      (|u - f.units n| = |u - f.units m| → Even m) := by
    rcases Nat.lt_or_gt_of_ne other with below | above
    · obtain ⟨k, rfl⟩ : ∃ k, m = k + 1 := ⟨m - 1, by omega⟩
      -- A magnitude further below is no closer than the neighbour.
      have further : (f.units n : ℚ) ≤ f.units k := units_cast_le (by omega)
      obtain ⟨low, even⟩ := around.low k rfl
      rw [upper_closer_iff (units_cast_lt below), equally_close_iff (units_cast_lt below)]
      exact ⟨by linarith, fun tie => even (by linarith)⟩
    · have further : (f.units (m + 1) : ℚ) ≤ f.units n := units_cast_le above
      obtain ⟨high, even⟩ := around.high (by omega)
      rw [lower_closer_iff (units_cast_lt above), eq_comm, equally_close_iff (units_cast_lt above)]
      exact ⟨by linarith, fun tie => even (by linarith)⟩
  refine ⟨around.bounded, fun n room => ?_, fun n room other => (key n room other).2⟩
  by_cases same : n = m
  · rw [same]
  · exact (key n room same).1

theorem isNearest_of_above (room : m ≤ f.infinite) (above : (f.units m : ℚ) ≤ u)
    (high : m < f.infinite → 2 * u ≤ f.units m + f.units (m + 1) ∧
      (2 * u = f.units m + f.units (m + 1) → Even m)) : f.IsNearest u m := by
  refine Surrounds.isNearest ⟨room, ?_, high⟩
  rintro n rfl
  have less := units_cast_lt (f := f) n.lt_succ_self
  exact ⟨by linarith, fun tie => by linarith⟩

theorem isNearest_of_below (room : m ≤ f.infinite) (below : u ≤ f.units m)
    (low : ∀ n, m = n + 1 → (f.units n + f.units m : ℚ) ≤ 2 * u ∧
      (2 * u = f.units n + f.units m → Even m)) : f.IsNearest u m := by
  refine Surrounds.isNearest ⟨room, low, fun _ => ?_⟩
  have less := units_cast_lt (f := f) m.lt_succ_self
  exact ⟨by linarith, fun tie => by linarith⟩

theorem IsNearest.mono (nearest : f.IsNearest u m) (nearest' : f.IsNearest v n) (le : u ≤ v) :
    m ≤ n := by
  by_contra crossed
  have room := nearest.bounded
  obtain ⟨k, rfl⟩ : ∃ k, m = k + 1 := ⟨m - 1, by omega⟩
  obtain ⟨low, even⟩ := nearest.surrounds.low k rfl
  obtain ⟨high, even'⟩ := nearest'.surrounds.high (by omega)
  have first : (f.units n : ℚ) ≤ f.units k := units_cast_le (by omega)
  have second : (f.units (n + 1) : ℚ) ≤ f.units (k + 1) := units_cast_le (by omega)
  -- Both lie on the midpoint of two neighbours, which cannot both be even.
  have same : (f.units n : ℚ) = f.units k := by linarith
  obtain rfl : n = k := units_cast_strictMono.injective same
  exact absurd (even (by linarith)) (Nat.not_even_iff_odd.mpr (even' (by linarith)).add_one)

theorem IsNearest.unique (nearest : f.IsNearest u m) (nearest' : f.IsNearest u n) : m = n :=
  Nat.le_antisymm (nearest.mono nearest' le_rfl) (nearest'.mono nearest le_rfl)

theorem isNearest_infinite (excess : (f.units f.infinite : ℚ) ≤ u) : f.IsNearest u f.infinite :=
  isNearest_of_above le_rfl excess fun finite => absurd finite (lt_irrefl _)

theorem isNearest_units (room : m ≤ f.infinite) : f.IsNearest (f.units m) m := by
  refine isNearest_of_above room le_rfl fun _ => ?_
  have less := units_cast_lt (f := f) m.lt_succ_self
  exact ⟨by linarith, fun tie => by linarith⟩

theorem two_mul_div_le_iff {num den c : Nat} (positive : 0 < den) :
    2 * ((num : ℚ) / den) ≤ c ↔ 2 * num ≤ c * den := by
  rw [← mul_div_assoc, div_le_iff₀ (Nat.cast_pos.mpr positive)]
  norm_cast

theorem le_two_mul_div_iff {num den c : Nat} (positive : 0 < den) :
    (c : ℚ) ≤ 2 * ((num : ℚ) / den) ↔ c * den ≤ 2 * num := by
  rw [← mul_div_assoc, le_div_iff₀ (Nat.cast_pos.mpr positive)]
  norm_cast

theorem two_mul_div_eq_iff {num den c : Nat} (positive : 0 < den) :
    2 * ((num : ℚ) / den) = c ↔ 2 * num = c * den := by
  rw [le_antisymm_iff, le_antisymm_iff, two_mul_div_le_iff positive, le_two_mul_div_iff positive]

/-- What the shift leaves of a quotient has the leading bit in front, unless there is no shift. -/
theorem shifted_bounds (q : Nat) :
    (q.log2 - f.fractionBits = 0 ∨ f.leading ≤ q / 2 ^ (q.log2 - f.fractionBits)) ∧
      q / 2 ^ (q.log2 - f.fractionBits) < 2 * f.leading := by
  have high : q < 2 ^ (q.log2 + 1) := Nat.lt_log2_self
  have double : 2 * f.leading = 2 ^ (f.fractionBits + 1) := (Nat.pow_succ').symm
  rw [double, Nat.div_lt_iff_lt_mul (Nat.two_pow_pos _), ← Nat.pow_add]
  rcases Nat.le_total q.log2 f.fractionBits with short | long
  · refine ⟨.inl (by omega), high.trans_le (Nat.pow_le_pow_right (by decide) (by omega))⟩
  · have low : 2 ^ q.log2 ≤ q := Nat.log2_self_le fun zero => by
      subst zero
      have : (0 : Nat).log2 = 0 := rfl
      have : 0 < f.fractionBits := by cases f <;> decide
      omega
    refine ⟨.inr ?_, ?_⟩
    · rw [f.leading_eq, Nat.le_div_iff_mul_le (Nat.two_pow_pos _), ← Nat.pow_add,
        Nat.add_sub_cancel' long]
      exact low
    · rwa [show f.fractionBits + 1 + (q.log2 - f.fractionBits) = q.log2 + 1 by omega]

theorem roundQuotient_cases (num den : Nat) :
    roundQuotient num den = num / den ∧ 2 * num ≤ (2 * (num / den) + 1) * den ∧
        (2 * num = (2 * (num / den) + 1) * den → Even (num / den)) ∨
      roundQuotient num den = num / den + 1 ∧ (2 * (num / den) + 1) * den ≤ 2 * num ∧
        (2 * num = (2 * (num / den) + 1) * den → Even (num / den + 1)) := by
  have division := Nat.div_add_mod' num den
  have half : (2 * (num / den) + 1) * den = 2 * (num / den * den) + den := by ring
  rw [half]
  unfold roundQuotient
  simp only [Nat.even_iff]
  generalize num / den * den = whole at division
  split
  · exact .inl ⟨rfl, by omega, by omega⟩
  · split
    · exact .inr ⟨rfl, by omega, by omega⟩
    · rcases Nat.mod_two_eq_zero_or_one (num / den) with even | odd
      · exact .inl ⟨by omega, by omega, fun _ => even⟩
      · exact .inr ⟨by omega, by omega, fun _ => by omega⟩

/-- Between two neighbours the one on the same side of their midpoint is nearest, and infinity is
where there is no greater one. -/
theorem isNearest_min {k : Nat} (low : (f.units m : ℚ) ≤ u) (high : u ≤ f.units (m + 1))
    (side : k = m ∧ 2 * u ≤ f.units m + f.units (m + 1) ∧
        (2 * u = f.units m + f.units (m + 1) → Even m) ∨
      k = m + 1 ∧ (f.units m + f.units (m + 1) : ℚ) ≤ 2 * u ∧
        (2 * u = f.units m + f.units (m + 1) → Even (m + 1))) :
    f.IsNearest u (min f.infinite k) := by
  rcases Nat.lt_or_ge m f.infinite with finite | excess
  · rcases side with ⟨rfl, half⟩ | ⟨rfl, half⟩
    · rw [Nat.min_eq_right finite.le]
      exact isNearest_of_above finite.le low fun _ => half
    · rw [Nat.min_eq_right finite]
      refine isNearest_of_below finite high fun n before => ?_
      obtain rfl : m = n := Nat.succ.inj before
      exact half
  · rw [Nat.min_eq_left (by omega)]
    exact isNearest_infinite ((units_cast_le excess).trans low)

theorem nearest_isNearest (num : Nat) {den : Nat} (positive : 0 < den) :
    f.IsNearest (num / den) (f.nearest num den) := by
  obtain ⟨normal, small⟩ := f.shifted_bounds (num / den)
  unfold nearest
  simp only [Nat.pow_eq]
  generalize (num / den).log2 - f.fractionBits = shift at normal small ⊢
  rw [Nat.div_div_eq_div_mul] at normal small
  have rounded := roundQuotient_cases num (den * 2 ^ shift)
  have below := Nat.div_mul_le_self num (den * 2 ^ shift)
  have above := Nat.lt_mul_div_succ num (Nat.mul_pos positive (Nat.two_pow_pos shift))
  generalize num / (den * 2 ^ shift) = count at normal small rounded below above
  have start := f.units_add normal small
  have next := f.units_succ (shift * f.leading + count)
  rw [start, f.spacing_add normal small, ← Nat.add_one_mul] at next
  have even : Even (shift * f.leading) := f.even_leading.mul_left shift
  -- The half of the quotient is the midpoint of the two magnitudes around it.
  have midpoint : (f.units (shift * f.leading + count) + f.units (shift * f.leading + count + 1)) *
      den = (2 * count + 1) * (den * 2 ^ shift) := by
    rw [start, next]
    ring
  refine isNearest_min (m := shift * f.leading + count) ?_ ?_ ?_
  · rw [start, le_div_iff₀ (Nat.cast_pos.mpr positive)]
    exact_mod_cast (by linarith : count * 2 ^ shift * den ≤ num)
  · rw [next, div_le_iff₀ (Nat.cast_pos.mpr positive)]
    exact_mod_cast (by linarith : num ≤ (count + 1) * 2 ^ shift * den)
  · rw [← Nat.cast_add, two_mul_div_le_iff positive, le_two_mul_div_iff positive,
      two_mul_div_eq_iff positive, midpoint]
    rcases rounded with ⟨side, half, tie⟩ | ⟨side, half, tie⟩
    · exact .inl ⟨by rw [side], half, fun exact => even.add (tie exact)⟩
    · exact .inr ⟨by rw [side]; rfl, half, fun exact => even.add (tie exact)⟩

end FloatFormat

end Nominal
