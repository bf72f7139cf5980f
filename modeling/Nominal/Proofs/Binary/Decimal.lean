import Mathlib.Algebra.Order.Field.Power
import Nominal.Binary.Decimal
import Nominal.Proofs.Binary.Pattern
import Nominal.Proofs.Binary.Rounding

/-! Decimals beside the numbers of a format. A decimal rounds to the magnitude nearest to its
value, also where its size alone decides, so decimals of one value round alike. -/

namespace Nominal

namespace Decimal

variable {f : FloatFormat}

def value (d : Decimal) : ℚ := d.coefficient * 10 ^ d.exponent

theorem length_pos (d : Decimal) : 0 < d.length := List.length_pos_iff.mpr Nat.toDigits_ne_nil

theorem length_le_iff (d : Decimal) {k : Nat} (positive : 0 < k) :
    d.length ≤ k ↔ d.coefficient < 10 ^ k :=
  Nat.length_toDigits_le_iff (by decide) positive

theorem coefficient_lt (d : Decimal) : d.coefficient < 10 ^ d.length :=
  (d.length_le_iff d.length_pos).mp le_rfl

theorem le_coefficient {d : Decimal} (nonzero : d.coefficient ≠ 0) :
    10 ^ (d.length - 1) ≤ d.coefficient := by
  rcases Nat.lt_or_ge 1 d.length with long | short
  · by_contra small
    have := (d.length_le_iff (Nat.sub_pos_of_lt long)).mpr (Nat.lt_of_not_le small)
    omega
  · rw [Nat.sub_eq_zero_of_le short]
    exact Nat.pos_of_ne_zero nonzero

theorem coefficient_ne_zero {d : Decimal} (long : 1 < d.length) : d.coefficient ≠ 0 := by
  intro zero
  have := (d.length_le_iff Nat.one_pos).mpr (by omega)
  omega

theorem value_lt (d : Decimal) : d.value < 10 ^ (d.length + d.exponent) := by
  rw [value, zpow_add₀ (by norm_num), zpow_natCast]
  exact mul_lt_mul_of_pos_right (mod_cast d.coefficient_lt) (by positivity)

theorem le_value {d : Decimal} (nonzero : d.coefficient ≠ 0) :
    10 ^ (d.length + d.exponent - 1) ≤ d.value := by
  have power : (d.length + d.exponent - 1 : ℤ) = (d.length - 1 : ℕ) + d.exponent := by
    have := d.length_pos
    omega
  rw [value, power, zpow_add₀ (by norm_num), zpow_natCast]
  exact mul_le_mul_of_nonneg_right (mod_cast le_coefficient nonzero) (by positivity)

theorem units_infinite_le {d : Decimal} (nonzero : d.coefficient ≠ 0)
    (large : f.bias + 1 < d.length + d.exponent) :
    (f.units f.infinite : ℚ) ≤ d.value * 2 ^ f.scale := by
  rw [f.units_infinite]
  push_cast
  refine mul_le_mul_of_nonneg_right ?_ (by positivity)
  calc (2 ^ (f.bias + 1) : ℚ)
    _ ≤ 10 ^ (f.bias + 1) := pow_le_pow_left₀ (by norm_num) (by norm_num) _
    _ = 10 ^ ((f.bias + 1 : ℕ) : ℤ) := (zpow_natCast _ _).symm
    _ ≤ 10 ^ (d.length + d.exponent - 1) :=
      zpow_le_zpow_right₀ (by norm_num) (by push_cast; omega)
    _ ≤ d.value := le_value nonzero

theorem double_lt_one {d : Decimal} (small : d.length + d.exponent < -(f.scale : ℤ)) :
    2 * (d.value * 2 ^ f.scale) < 1 := by
  have tiny : d.value < 10 ^ (-(f.scale + 1 : ℕ) : ℤ) :=
    d.value_lt.trans_le (zpow_le_zpow_right₀ (by norm_num) (by push_cast; omega))
  rw [zpow_neg, zpow_natCast] at tiny
  calc 2 * (d.value * 2 ^ f.scale)
    _ < 2 * ((10 ^ (f.scale + 1))⁻¹ * 2 ^ f.scale) := by gcongr
    _ = (2 / 10 : ℚ) ^ (f.scale + 1) := by rw [div_pow]; ring
    _ ≤ 1 := pow_le_one₀ (by norm_num) (by norm_num)

theorem value_nonneg (d : Decimal) : 0 ≤ d.value := by
  unfold value
  positivity

theorem nearest_isNearest (d : Decimal) : f.IsNearest (d.value * 2 ^ f.scale) (d.nearest f) := by
  unfold nearest
  -- The first three cases are decided by size alone, the last two by one rounded quotient.
  split_ifs with zero large small whole
  · have nothing : d.value * 2 ^ f.scale = f.units 0 := by
      rw [value, zero, f.units_zero, Nat.cast_zero, zero_mul, zero_mul]
    rw [nothing]
    exact FloatFormat.isNearest_units (Nat.zero_le _)
  · exact FloatFormat.isNearest_infinite (units_infinite_le zero large)
  · have one : f.units 1 = 1 := by cases f <;> decide
    have half := double_lt_one small
    have nonneg := d.value_nonneg
    refine FloatFormat.isNearest_of_above (Nat.zero_le _) ?_ fun _ => ?_
    · rw [f.units_zero, Nat.cast_zero]
      positivity
    · rw [f.units_zero, Nat.zero_add, one]
      push_cast
      exact ⟨by linarith, fun tie => absurd tie (by linarith)⟩
  · have exact : d.value * 2 ^ f.scale =
        (d.coefficient * 10 ^ d.exponent.toNat * 2 ^ f.scale : ℕ) / (1 : ℕ) := by
      rw [value, ← Int.toNat_of_nonneg whole, zpow_natCast, Int.toNat_natCast]
      push_cast
      rw [div_one]
    rw [exact]
    exact FloatFormat.nearest_isNearest _ Nat.one_pos
  · obtain ⟨places, negative⟩ := Int.exists_eq_neg_ofNat (by omega : d.exponent ≤ 0)
    have exact : d.value * 2 ^ f.scale =
        (d.coefficient * 2 ^ f.scale : ℕ) / (10 ^ (-d.exponent).toNat : ℕ) := by
      rw [value, negative, zpow_neg, neg_neg, zpow_natCast, Int.toNat_natCast]
      push_cast
      ring
    rw [exact]
    exact FloatFormat.nearest_isNearest _ (by positivity)

theorem nearest_congr {d d' : Decimal} (same : d.value = d'.value) : d.nearest f = d'.nearest f :=
  d.nearest_isNearest.unique (same ▸ d'.nearest_isNearest)

theorem nearest_mono {d d' : Decimal} (le : d.value ≤ d'.value) : d.nearest f ≤ d'.nearest f :=
  d.nearest_isNearest.mono d'.nearest_isNearest (by gcongr)

/-- What lies between two decimals that are read alike is read as they are. -/
theorem nearest_of_between {d t d' : Decimal} {m : Nat} (low : d.nearest f = m)
    (high : d'.nearest f = m) (above : d.value ≤ t.value) (below : t.value ≤ d'.value) :
    t.nearest f = m :=
  Nat.le_antisymm ((nearest_mono below).trans_eq high) (low.symm.trans_le (nearest_mono above))

theorem value_strip (c : Nat) (e : ℤ) : (strip c e).value = c * 10 ^ e := by
  fun_induction strip c e with
  | case1 => rw [value, Nat.cast_zero, zero_mul, zero_mul]
  | case2 c e nonzero ends ih =>
    obtain ⟨k, rfl⟩ := Nat.dvd_of_mod_eq_zero ends
    rw [ih, Nat.mul_div_cancel_left k (by decide), zpow_add₀ (by norm_num), zpow_one]
    push_cast
    ring
  | case3 => rfl

theorem coefficient_strip_le (c : Nat) (e : ℤ) : (strip c e).coefficient ≤ c := by
  fun_induction strip c e with
  | case1 => exact Nat.zero_le _
  | case2 c e nonzero ends ih => exact ih.trans (Nat.div_le_self _ _)
  | case3 => exact le_rfl

/-- A coefficient that a carry has made longer is a power of ten and becomes short again. -/
theorem length_strip_le {c k : Nat} (e : ℤ) (positive : 0 < k) (room : c ≤ 10 ^ k) :
    (strip c e).length ≤ k := by
  rw [length_le_iff _ positive]
  rcases Nat.lt_or_eq_of_le room with less | rfl
  · exact (coefficient_strip_le c e).trans_lt less
  · obtain ⟨k, rfl⟩ := Nat.exists_eq_succ_of_ne_zero positive.ne'
    have nonzero : 10 ^ (k + 1) ≠ 0 := by positivity
    have ends : 10 ^ (k + 1) % 10 = 0 := Nat.pow_succ' ▸ Nat.mul_mod_right 10 _
    rw [strip, dif_neg nonzero, if_pos ends]
    calc (strip (10 ^ (k + 1) / 10) (e + 1)).coefficient
      _ ≤ 10 ^ (k + 1) / 10 := coefficient_strip_le _ _
      _ < 10 ^ (k + 1) := Nat.div_lt_self (by positivity) (by decide)

theorem value_exact (f : FloatFormat) (m : Nat) : (exact f m).value = f.worth m := by
  rw [value, exact, FloatFormat.worth, zpow_neg, zpow_natCast, Nat.pow_eq]
  have split : (10 ^ f.scale : ℚ) = 5 ^ f.scale * 2 ^ f.scale := by
    rw [← mul_pow]
    norm_num
  rw [split]
  push_cast
  field_simp

theorem nearest_exact {m : Nat} (room : m ≤ f.infinite) : (exact f m).nearest f = m := by
  have near := (exact f m).nearest_isNearest (f := f)
  rw [value_exact, FloatFormat.worth, div_mul_cancel₀ _ (by positivity)] at near
  exact near.unique (FloatFormat.isNearest_units room)

end Decimal

end Nominal
