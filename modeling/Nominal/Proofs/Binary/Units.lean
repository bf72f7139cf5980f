import Mathlib.Order.Monotone.Basic
import Mathlib.Tactic.Linarith
import Mathlib.Tactic.Ring
import Nominal.Binary.Rounding

/-! The units that magnitudes count. A magnitude is a number of multiples of a power of two, at
least as many as the leading bit weighs unless the power is one. From one magnitude to the next
the units grow by that power, so that magnitudes are in the order of what they stand for, and the
magnitude of infinity counts as the power of two that would follow the greatest finite number. -/

namespace Nominal.FloatFormat

variable (f : FloatFormat)

theorem leading_eq : f.leading = 2 ^ f.fractionBits := rfl

theorem leading_pos : 0 < f.leading := Nat.two_pow_pos _

theorem even_leading : Even f.leading := by
  cases f <;> decide

def spacing (magnitude : Nat) : Nat := 2 ^ (magnitude / f.leading - 1)

theorem spacing_pos (m : Nat) : 0 < f.spacing m := Nat.two_pow_pos _

section Shift

variable {shift k : Nat} (normal : shift = 0 ∨ f.leading ≤ k) (small : k < 2 * f.leading)
include normal small

theorem parts_of_shift : k < f.leading ∧ shift = 0 ∨ f.leading ≤ k ∧
    (shift * f.leading + k) / f.leading = shift + 1 ∧
    (shift * f.leading + k) % f.leading = k - f.leading := by
  rcases Nat.lt_or_ge k f.leading with low | high
  · exact .inl ⟨low, normal.resolve_right (Nat.not_le_of_lt low)⟩
  · obtain ⟨rest, rfl⟩ := Nat.exists_eq_add_of_le high
    have split : shift * f.leading + (f.leading + rest) = rest + f.leading * (shift + 1) := by ring
    have fraction : rest < f.leading := by omega
    rw [split, Nat.add_mul_div_left _ _ f.leading_pos, Nat.div_eq_of_lt fraction,
      Nat.add_mul_mod_self_left, Nat.mod_eq_of_lt fraction, Nat.add_sub_cancel_left]
    exact .inr ⟨high, Nat.zero_add _, rfl⟩

theorem units_add : f.units (shift * f.leading + k) = k * 2 ^ shift := by
  rcases f.parts_of_shift normal small with ⟨low, rfl⟩ | ⟨high, quotient, remainder⟩
  · rw [Nat.zero_mul, Nat.zero_add, units, if_pos low, Nat.pow_zero, Nat.mul_one]
  · have above : ¬ shift * f.leading + k < f.leading := by omega
    rw [units, if_neg above, quotient, remainder, Nat.add_sub_cancel' high]
    rfl

theorem spacing_add : f.spacing (shift * f.leading + k) = 2 ^ shift := by
  rcases f.parts_of_shift normal small with ⟨low, rfl⟩ | ⟨-, quotient, -⟩
  · rw [Nat.zero_mul, Nat.zero_add, spacing, Nat.div_eq_of_lt low]
  · rw [spacing, quotient, Nat.add_sub_cancel]

end Shift

/-- Every magnitude counts multiples of a power of two. -/
theorem exists_shift (m : Nat) : ∃ shift k, m = shift * f.leading + k ∧
    (shift = 0 ∨ f.leading ≤ k) ∧ k < 2 * f.leading := by
  have positive := f.leading_pos
  have division := Nat.div_add_mod' m f.leading
  have small := Nat.mod_lt m positive
  cases found : m / f.leading with
  | zero =>
    rw [found] at division
    exact ⟨0, m, by omega, .inl rfl, by omega⟩
  | succ shift =>
    rw [found, Nat.succ_mul] at division
    exact ⟨shift, f.leading + m % f.leading, by omega, .inr (Nat.le_add_right _ _), by omega⟩

theorem units_succ (m : Nat) : f.units (m + 1) = f.units m + f.spacing m := by
  obtain ⟨shift, k, rfl, normal, small⟩ := f.exists_shift m
  rw [f.units_add normal small, f.spacing_add normal small]
  rcases Nat.lt_or_ge (k + 1) (2 * f.leading) with inside | full
  · rw [Nat.add_assoc, f.units_add (normal.imp_right Nat.le_succ_of_le) inside]
    exact Nat.succ_mul k _
  · -- The next magnitude is the first one with twice the spacing.
    have last : k + 1 = 2 * f.leading := by omega
    have next : shift * f.leading + k + 1 = (shift + 1) * f.leading + f.leading := by
      rw [Nat.add_assoc, last]
      ring
    calc f.units (shift * f.leading + k + 1)
      _ = f.leading * 2 ^ (shift + 1) := by
        rw [next, f.units_add (.inr (Nat.le_refl _)) (by have := f.leading_pos; omega)]
      _ = (k + 1) * 2 ^ shift := by rw [last]; ring
      _ = k * 2 ^ shift + 2 ^ shift := Nat.succ_mul k _

theorem units_strictMono : StrictMono f.units := by
  refine strictMono_nat_of_lt_succ fun m => ?_
  rw [units_succ]
  exact Nat.lt_add_of_pos_right (f.spacing_pos m)

theorem units_zero : f.units 0 = 0 := if_pos f.leading_pos

theorem units_eq_zero_iff {m : Nat} : f.units m = 0 ↔ m = 0 :=
  f.units_strictMono.injective.eq_iff' f.units_zero

theorem units_lt (m : Nat) : f.units m < 2 * f.leading * f.spacing m := by
  obtain ⟨shift, k, rfl, normal, small⟩ := f.exists_shift m
  rw [f.units_add normal small, f.spacing_add normal small]
  exact Nat.mul_lt_mul_of_pos_right small (Nat.two_pow_pos _)

theorem units_succ_le (m : Nat) : f.units (m + 1) ≤ 2 * f.leading * f.spacing m := by
  obtain ⟨shift, k, rfl, normal, small⟩ := f.exists_shift m
  rw [units_succ, f.units_add normal small, f.spacing_add normal small]
  calc k * 2 ^ shift + 2 ^ shift
    _ = (k + 1) * 2 ^ shift := (Nat.succ_mul k _).symm
    _ ≤ 2 * f.leading * 2 ^ shift := Nat.mul_le_mul_right _ small

theorem units_infinite : f.units f.infinite = 2 ^ (f.bias + 1) * 2 ^ f.scale := by
  cases f <;> decide +kernel

end Nominal.FloatFormat
