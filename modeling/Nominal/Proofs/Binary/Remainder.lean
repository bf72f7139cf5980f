import Mathlib.Data.Rat.Floor
import Nominal.Proofs.Binary.Order
import Nominal.Proofs.Binary.Rounding

/-! Remainders of wrapped floating-point numbers. The units of two numbers are both multiples of
the smaller one of their spacings, and so is what is left by a division. Since it is also no
greater than either of them, there is a magnitude for it, to which it rounds without loss. -/

namespace Nominal

namespace FloatFormat

variable {f : FloatFormat}

theorem exists_units {k : Nat} (small : k < 2 * f.leading) (shift : Nat) :
    ∃ m, f.units m = k * 2 ^ shift := by
  induction shift generalizing k with
  | zero => exact ⟨_, f.units_add (.inl rfl) small⟩
  | succ shift ih =>
    rcases Nat.lt_or_ge k f.leading with low | high
    · obtain ⟨m, same⟩ := ih (k := 2 * k) (by omega)
      exact ⟨m, by rw [same]; ring⟩
    · exact ⟨_, f.units_add (.inr high) small⟩

theorem exists_units_mod (m : Nat) {n : Nat} (divides : n ≠ 0) :
    ∃ r, f.units r = f.units m % f.units n := by
  obtain ⟨s, k, rfl, normal, small⟩ := f.exists_shift m
  obtain ⟨t, l, rfl, normal', small'⟩ := f.exists_shift n
  have positive : 0 < l := by
    refine Nat.pos_of_ne_zero fun zero => divides ?_
    rcases normal' with rfl | high
    · rw [zero, Nat.zero_mul, Nat.zero_add]
    · exact absurd (zero ▸ high) (Nat.not_le_of_lt f.leading_pos)
  rw [f.units_add normal small, f.units_add normal' small']
  rcases Nat.le_total s t with less | less
  · obtain ⟨d, rfl⟩ := Nat.exists_eq_add_of_le less
    have same : k * 2 ^ s % (l * 2 ^ (s + d)) = k % (l * 2 ^ d) * 2 ^ s := by
      rw [Nat.pow_add', ← Nat.mul_assoc, Nat.mul_mod_mul_right]
    rw [same]
    exact exists_units ((Nat.mod_le _ _).trans_lt small) s
  · obtain ⟨d, rfl⟩ := Nat.exists_eq_add_of_le less
    have same : k * 2 ^ (t + d) % (l * 2 ^ t) = k * 2 ^ d % l * 2 ^ t := by
      rw [Nat.pow_add', ← Nat.mul_assoc, Nat.mul_mod_mul_right]
    rw [same]
    exact exists_units ((Nat.mod_lt _ positive).trans small') t

theorem nearest_units {m : Nat} (room : m ≤ f.infinite) : f.nearest (f.units m) 1 = m := by
  have near := nearest_isNearest (f := f) (f.units m) Nat.one_pos
  rw [Nat.cast_one, div_one] at near
  exact near.unique (isNearest_units room)

theorem exists_nearest_mod {m n : Nat} (room : m ≤ f.infinite) (divides : n ≠ 0) :
    ∃ r, f.nearest (f.units m % f.units n) 1 = r ∧ f.units r = f.units m % f.units n ∧
      r ≤ m ∧ r < n := by
  obtain ⟨r, same⟩ := exists_units_mod (f := f) m divides
  have positive : 0 < f.units n := Nat.pos_of_ne_zero (f.units_eq_zero_iff.not.mpr divides)
  have below : r ≤ m := f.units_strictMono.le_iff_le.mp (same ▸ Nat.mod_le _ _)
  have less : r < n := f.units_strictMono.lt_iff_lt.mp (same ▸ Nat.mod_lt _ positive)
  exact ⟨r, by rw [← same, nearest_units (below.trans room)], same, below, less⟩

end FloatFormat

def truncation (x : ℚ) : ℤ := if 0 ≤ x then ⌊x⌋ else ⌈x⌉

theorem truncation_neg (x : ℚ) : truncation (-x) = -truncation x := by
  rcases lt_trichotomy x 0 with less | rfl | greater
  · rw [truncation, truncation, if_pos (by linarith), if_neg (by linarith), Int.floor_neg]
  · rfl
  · rw [truncation, truncation, if_neg (by linarith), if_pos greater.le, Int.ceil_neg]

theorem truncation_div (m n : Nat) : truncation (m / n) = (m / n : Nat) := by
  rw [truncation, if_pos (by positivity), Rat.floor_natCast_div_natCast]
  rfl

/-- A division with a whole quotient whose remainder goes with the dividend. -/
structure IsRemainder (a b r : ℚ) : Prop where
  whole : a = truncation (a / b) * b + r
  less : |r| < |b|

theorem IsRemainder.neg_left {a b r : ℚ} (left : IsRemainder a b r) : IsRemainder (-a) b (-r) where
  whole := by
    rw [neg_div, truncation_neg, Int.cast_neg]
    linarith [left.whole]
  less := by rw [abs_neg]; exact left.less

theorem IsRemainder.neg_right {a b r : ℚ} (left : IsRemainder a b r) : IsRemainder a (-b) r where
  whole := by
    rw [div_neg, truncation_neg, Int.cast_neg]
    linarith [left.whole]
  less := by rw [abs_neg]; exact left.less

namespace FloatFormat

variable {f : FloatFormat}

theorem isRemainder_worth {m n r : Nat} (same : f.units r = f.units m % f.units n) (less : r < n) :
    IsRemainder (f.worth m) (f.worth n) (f.worth r) where
  whole := by
    have scale : (2 ^ f.scale : ℚ) ≠ 0 := by positivity
    have division : (f.units m : ℚ) = (f.units m / f.units n : ℕ) * f.units n + f.units r := by
      rw [same]
      exact_mod_cast (Nat.div_add_mod' _ _).symm
    have quotient : f.worth m / f.worth n = f.units m / f.units n :=
      div_div_div_cancel_right₀ scale _ _
    rw [quotient, truncation_div, worth, worth, worth, ← mul_div_assoc, ← add_div]
    congr 1
  less := by
    have nonneg (k : Nat) : 0 ≤ f.worth k := f.worth_zero ▸ f.worth_strictMono.monotone k.zero_le
    rw [abs_of_nonneg (nonneg r), abs_of_nonneg (nonneg n)]
    exact f.worth_strictMono less

theorem isRemainder_along {m n r : Nat} (same : f.units r = f.units m % f.units n) (less : r < n)
    (s t : Bool) : IsRemainder (f.along (Binary.rank s m)) (f.along (Binary.rank t n))
      (f.along (Binary.rank s r)) := by
  have positive := isRemainder_worth same less
  simp only [Binary.along_rank]
  cases s <;> cases t
  · exact positive
  · exact positive.neg_right
  · exact positive.neg_left
  · exact positive.neg_left.neg_right

end FloatFormat

namespace Binary

variable {f : FloatFormat}

theorem rem_of_finite {s t : Bool} {m n : Nat} (hm : m ≤ f.infinite) (hn : n ≤ f.infinite)
    (finite : m ≠ f.infinite) (finite' : n ≠ f.infinite) (divides : n ≠ 0) :
    ∃ r hr, (number s m hm).rem (number t n hn) = number s r hr ∧ r ≠ f.infinite ∧
      f.units r = f.units m % f.units n ∧ r < n := by
  obtain ⟨r, exact, same, below, less⟩ := FloatFormat.exists_nearest_mod hm divides
  have defined : ¬ (m = f.infinite ∨ n = 0) := not_or.mpr ⟨finite, divides⟩
  refine ⟨r, below.trans hm, ?_, by omega, same, less⟩
  simp only [rem, if_neg defined, if_neg finite', round, exact]

end Binary

namespace FloatFormat.Pattern

variable {f : FloatFormat} {x y z : f.Pattern}

structure RemainderOf (x y z : f.Pattern) : Prop where
  undefined : x.IsNan ∨ x.IsInfinite ∨ y.IsNan ∨ y.IsZero → z.IsNan
  unchanged : ¬ x.IsNan → ¬ x.IsInfinite → y.IsInfinite → z = x
  exact : ¬ x.IsNan → ¬ x.IsInfinite → ¬ y.IsNan → ¬ y.IsInfinite → ¬ y.IsZero →
    ∃ a b r : ℚ, x.value? = some (.finite a) ∧ y.value? = some (.finite b) ∧
      z.value? = some (.finite r) ∧ IsRemainder a b r ∧ z.negative = x.negative

theorem value?_of_finite (ordered : ¬ x.IsNan) (finite : ¬ x.IsInfinite) :
    x.value? = some (.finite (f.along (Binary.rank x.negative x.magnitude))) := by
  rw [value?, if_neg ordered, if_neg finite, Binary.along_rank, x.size_eq]

section Numbers

variable (same : z.number = x.number.rem y.number)
include same

theorem isNan_of_rem (undefined : x.IsNan ∨ x.IsInfinite ∨ y.IsNan ∨ y.IsZero) : z.IsNan := by
  rw [← number_eq_nan_iff, same, number_eq, number_eq]
  rw [isNan_iff, isInfinite_iff, isNan_iff, isZero_iff] at undefined
  split_ifs with bounded bounded'
  · exact if_pos (by omega)
  all_goals rfl

theorem eq_of_rem_infinite (ordered : ¬ x.IsNan) (finite : ¬ x.IsInfinite)
    (infinite : y.IsInfinite) : z = x := by
  obtain ⟨hm, left⟩ := exists_number ordered
  obtain ⟨hn, right⟩ := exists_number fun nan : y.IsNan => nan.2 infinite.2
  rw [isInfinite_iff] at finite infinite
  have divides : y.magnitude ≠ 0 := infinite ▸ f.infinite_pos.ne'
  refine (number_inj ordered ?_).symm
  rw [same, left, right, Binary.rem, if_neg (not_or.mpr ⟨finite, divides⟩), if_pos infinite]

theorem exists_remainder (ordered : ¬ x.IsNan) (finite : ¬ x.IsInfinite) (ordered' : ¬ y.IsNan)
    (finite' : ¬ y.IsInfinite) (divides : ¬ y.IsZero) :
    ∃ a b r : ℚ, x.value? = some (.finite a) ∧ y.value? = some (.finite b) ∧
      z.value? = some (.finite r) ∧ IsRemainder a b r ∧ z.negative = x.negative := by
  obtain ⟨hm, left⟩ := exists_number ordered
  obtain ⟨hn, right⟩ := exists_number ordered'
  rw [left, right] at same
  obtain ⟨r, hr, result, small, units, less⟩ := Binary.rem_of_finite (s := x.negative)
    (t := y.negative) hm hn (x.isInfinite_iff.not.mp finite) (y.isInfinite_iff.not.mp finite')
    (y.isZero_iff.not.mp divides)
  obtain ⟨number, sign, magnitude⟩ := parts_of_number (same.trans result)
  have bounded : ¬ z.IsInfinite := by rwa [isInfinite_iff, magnitude]
  refine ⟨_, _, _, value?_of_finite ordered finite, value?_of_finite ordered' finite',
    value?_of_finite number bounded, ?_, sign⟩
  rw [sign, magnitude]
  exact FloatFormat.isRemainder_along units less _ _

theorem remainderOf : RemainderOf x y z where
  undefined := isNan_of_rem same
  unchanged := eq_of_rem_infinite same
  exact := exists_remainder same

end Numbers

end FloatFormat.Pattern

namespace Wrapped

open FloatFormat.Pattern

variable {tag : Tag} {f : FloatFormat} {name : Text}

/-- A remainder is always found, in both shapes of the operand and also in place, and it is exact
wherever there is one. -/
theorem remainders_exact (named : tag.name? = some name) (x y : f.Pattern)
    (rhs : Operand (Binary f)) (contributed : rhs.contribution x.number = y.number) :
    ∃ z, RemainderOf x y z ∧
      perform (.float f) (ofPattern tag x) (.operate .rem rhs) = answer .nothing (ofPattern tag z) ∧
      perform (.float f) (ofPattern tag x) (.compound .rem rhs) =
        answer .nothing (ofPattern tag z) := by
  obtain ⟨z, found⟩ := exists_pattern (x.number.rem y.number)
  have result : (⟨x.number.rem (rhs.contribution x.number)⟩ : Wrapped tag (Binary f)) =
      ofPattern tag z := by
    rw [contributed, ← found]
    rfl
  refine ⟨z, remainderOf found, ?_, ?_⟩
  · simp only [perform, operate_eq, Interface.float, Tag.forward_named named, ← result]
    rfl
  · simp only [perform, compound_eq, Interface.float, Tag.forward_named named, ← result]
    rfl

theorem remainders_exact_gain :
    let tag : Tag := .named "Gain"
    let x : FloatFormat.Pattern .single := .ofNat _ 0xFF7FFFFF
    let y : FloatFormat.Pattern .single := .ofNat _ 3
    ∃ z : FloatFormat.Pattern .single, z.negative = true ∧ (∃ r, z.value? = some (.finite r)) ∧
      perform (.float .single) (ofPattern tag x) (.compound .rem (.bare y.number)) =
        answer .nothing (ofPattern tag z) := by
  intro tag x y
  have named : tag.name? = some "Gain".toList := rfl
  obtain ⟨z, remainder, -, reply⟩ := remainders_exact named x y (.bare y.number) rfl
  obtain ⟨a, b, r, -, -, value, -, sign⟩ := remainder.exact (by decide) (by decide) (by decide)
    (by decide) (by decide)
  exact ⟨z, sign.trans (by decide), ⟨r, value⟩, reply⟩

end Wrapped

end Nominal
