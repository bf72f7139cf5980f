import Mathlib.Algebra.Order.Field.Rat
import Mathlib.Algebra.Order.Monoid.WithTop
import Mathlib.Data.Int.ConditionallyCompleteOrder
import Mathlib.Data.Nat.Cast.Order.Field
import Mathlib.Order.Compare
import Mathlib.Order.Monotone.Odd
import Mathlib.Tactic.FieldSimp
import Mathlib.Tactic.Positivity
import Nominal.Binary.Arithmetic
import Nominal.Proofs.Binary.Units

/-! Patterns of bits. From the front a pattern has a sign, an exponent and a fraction. With the
exponent zero the fraction stands for itself, with any other but the last the leading bit is in
front of it, and the last is kept for the infinities and for what is not a number. Read as
numbers the bits below the sign are in the order of the sizes they stand for. -/

namespace Nominal

abbrev Extended : Type := WithBot (WithTop ℚ)

def Extended.finite (q : ℚ) : Extended := ((q : WithTop ℚ) : WithBot (WithTop ℚ))

theorem Extended.finite_strictMono : StrictMono finite :=
  WithBot.coe_strictMono.comp WithTop.coe_strictMono

namespace FloatFormat

section Place

variable (f : FloatFormat)

theorem signBit_pos : 0 < f.signBit := Nat.lt_of_le_of_lt (Nat.zero_le _) f.infinite_lt_signBit

theorem infinite_pos : 0 < f.infinite := by
  cases f <;> decide

def worth (m : Nat) : ℚ := f.units m / 2 ^ f.scale

theorem worth_zero : f.worth 0 = 0 := by
  rw [worth, units_zero, Nat.cast_zero, zero_div]

theorem worth_strictMono : StrictMono f.worth := fun _ _ less =>
  div_lt_div_of_pos_right (Nat.cast_lt.mpr (f.units_strictMono less)) (by positivity)

def along (rank : ℤ) : ℚ := rank.sign * f.worth rank.natAbs

theorem along_natCast (m : Nat) : f.along m = f.worth m := by
  cases m with
  | zero => simp [along, f.worth_zero]
  | succ m =>
    rw [along, Int.natAbs_natCast, Int.sign_natCast_of_ne_zero m.succ_ne_zero, Int.cast_one,
      one_mul]

theorem along_neg (rank : ℤ) : f.along (-rank) = -f.along rank := by
  rw [along, Int.sign_neg, Int.natAbs_neg, Int.cast_neg, neg_mul]
  rfl

theorem along_strictMono : StrictMono f.along := by
  refine strictMono_of_odd_strictMonoOn_nonneg f.along_neg ?_
  rintro a nonneg b nonneg' less
  lift a to ℕ using nonneg
  lift b to ℕ using nonneg'
  rw [along_natCast, along_natCast]
  exact f.worth_strictMono (Int.ofNat_lt.mp less)

def place (rank : ℤ) : Extended :=
  if rank = -f.infinite then ⊥
  else if rank = f.infinite then ⊤
  else .finite (f.along rank)

theorem place_strictMonoOn : StrictMonoOn f.place (Set.Icc (-f.infinite) f.infinite) := by
  rintro a ⟨low, -⟩ b ⟨-, high⟩ less
  have upper : a ≠ f.infinite := by omega
  have lower : b ≠ -f.infinite := by omega
  simp only [place, if_neg upper, if_neg lower]
  split_ifs with least greatest
  · exact bot_lt_top
  · exact WithBot.bot_lt_coe _
  · exact WithBot.coe_lt_coe.mpr (WithTop.coe_lt_top _)
  · exact Extended.finite_strictMono (f.along_strictMono less)

end Place

variable {f : FloatFormat}

abbrev Pattern (f : FloatFormat) : Type := BitVec (1 + f.exponentBits + f.fractionBits)

namespace Pattern

variable (x : f.Pattern)

def negative : Bool := x.msb

def exponent : Nat := (x.extractLsb' f.fractionBits f.exponentBits).toNat

def fraction : Nat := (x.extractLsb' 0 f.fractionBits).toNat

def IsSpecial : Prop := x.exponent = 2 ^ f.exponentBits - 1

def IsNan : Prop := x.IsSpecial ∧ x.fraction ≠ 0

def IsInfinite : Prop := x.IsSpecial ∧ x.fraction = 0

def IsZero : Prop := x.exponent = 0 ∧ x.fraction = 0

instance : Decidable x.IsSpecial := inferInstanceAs (Decidable (_ = _))

instance : Decidable x.IsNan := inferInstanceAs (Decidable (_ ∧ _))

instance : Decidable x.IsInfinite := inferInstanceAs (Decidable (_ ∧ _))

instance : Decidable x.IsZero := inferInstanceAs (Decidable (_ ∧ _))

def size : ℚ :=
  if x.exponent = 0 then x.fraction / 2 ^ f.fractionBits * 2 ^ (1 - f.bias : ℤ)
  else (1 + x.fraction / 2 ^ f.fractionBits) * 2 ^ (x.exponent - f.bias : ℤ)

/-- The number that a pattern stands for, with the infinities at the ends. -/
def value? : Option Extended :=
  if x.IsNan then none
  else if x.IsInfinite then some (if x.negative then ⊥ else ⊤)
  else some (.finite (if x.negative then -x.size else x.size))

theorem value?_eq_none_iff : x.value? = none ↔ x.IsNan := by
  unfold value?
  split_ifs <;> simp [*]

def magnitude : Nat := x.toNat % f.signBit

theorem exponent_eq : x.exponent = x.magnitude / f.leading := by
  rw [exponent, BitVec.extractLsb'_toNat, Nat.shiftRight_eq_div_pow, magnitude, signBit,
    Nat.mod_mul_left_div_self]
  rfl

theorem fraction_eq : x.fraction = x.magnitude % f.leading := by
  rw [fraction, BitVec.extractLsb'_toNat, Nat.shiftRight_zero, magnitude, signBit,
    Nat.mod_mul_left_mod]
  rfl

theorem magnitude_eq : x.magnitude = x.exponent * f.leading + x.fraction := by
  rw [exponent_eq, fraction_eq, Nat.div_add_mod']

theorem fraction_lt : x.fraction < f.leading := (x.extractLsb' 0 f.fractionBits).isLt

theorem exponent_lt : x.exponent < 2 ^ f.exponentBits :=
  (x.extractLsb' f.fractionBits f.exponentBits).isLt

theorem quotient_lt : x.toNat / f.signBit < 2 := by
  rw [Nat.div_lt_iff_lt_mul f.signBit_pos]
  have := x.isLt
  cases f <;> exact this

theorem negative_eq : x.negative = decide (x.toNat / f.signBit = 1) := by
  have weight : 2 ^ (1 + f.exponentBits + f.fractionBits - 1) = 1 * f.signBit := by
    cases f <;> rfl
  have small := x.quotient_lt
  rw [negative, BitVec.msb_eq_decide, weight, decide_eq_decide,
    ← Nat.le_div_iff_mul_le f.signBit_pos]
  omega

theorem infinite_add_fraction (special : x.IsSpecial) : x.magnitude = f.infinite + x.fraction := by
  rw [magnitude_eq, special]
  rfl

theorem magnitude_lt_infinite (ordinary : ¬ x.IsSpecial) : x.magnitude < f.infinite := by
  have below : x.exponent < 2 ^ f.exponentBits - 1 := by
    have := x.exponent_lt
    unfold IsSpecial at ordinary
    omega
  calc x.magnitude
    _ < (x.exponent + 1) * f.leading := by
      rw [magnitude_eq, Nat.succ_mul]
      exact Nat.add_lt_add_left x.fraction_lt _
    _ ≤ f.infinite := Nat.mul_le_mul_right _ below

theorem isNan_iff : x.IsNan ↔ f.infinite < x.magnitude := by
  by_cases special : x.IsSpecial
  · rw [IsNan, x.infinite_add_fraction special]
    simp only [special, true_and]
    omega
  · have := x.magnitude_lt_infinite special
    exact iff_of_false (fun nan => special nan.1) (by omega)

theorem isInfinite_iff : x.IsInfinite ↔ x.magnitude = f.infinite := by
  by_cases special : x.IsSpecial
  · rw [IsInfinite, x.infinite_add_fraction special]
    simp only [special, true_and]
    omega
  · exact iff_of_false (fun infinite => special infinite.1) (x.magnitude_lt_infinite special).ne

theorem isZero_iff : x.IsZero ↔ x.magnitude = 0 := by
  rw [IsZero, magnitude_eq, Nat.add_eq_zero_iff, Nat.mul_eq_zero, or_iff_left f.leading_pos.ne']

end Pattern

theorem Pattern.size_eq (x : f.Pattern) : x.size = f.worth x.magnitude := by
  have split : (2 ^ f.scale : ℚ) = 2 ^ f.fractionBits * 2 ^ (f.bias - 1) := by
    rw [← pow_add]
    cases f <;> rfl
  have bias : (1 - f.bias : ℤ) = -(f.bias - 1 : ℕ) := by
    cases f <;> rfl
  rw [size, worth, split]
  by_cases low : x.exponent = 0
  · have few : x.magnitude = x.fraction := by rw [magnitude_eq, low, Nat.zero_mul, Nat.zero_add]
    rw [if_pos low, few, units, if_pos x.fraction_lt, bias, zpow_neg, zpow_natCast]
    field_simp
  · obtain ⟨e, high⟩ := Nat.exists_eq_succ_of_ne_zero low
    have many : ¬ x.magnitude < f.leading := by
      rw [magnitude_eq, high, Nat.succ_mul]
      omega
    have power : (x.exponent - f.bias : ℤ) = e - (f.bias - 1 : ℕ) := by
      rw [high]
      push_cast
      omega
    rw [if_neg low, units, if_neg many, ← fraction_eq, ← exponent_eq, power,
      zpow_sub₀ two_ne_zero, high, Nat.succ_sub_one]
    simp only [zpow_natCast, leading_eq, Nat.pow_eq]
    push_cast
    field_simp

end FloatFormat

namespace Binary

variable {f : FloatFormat}

def value? : Binary f → Option Extended
  | .nan => none
  | .number negative magnitude _ => some (f.place (rank negative magnitude))

theorem along_rank (negative : Bool) (m : Nat) :
    f.along (rank negative m) = if negative then -f.worth m else f.worth m := by
  cases negative
  · exact f.along_natCast m
  · exact (f.along_neg m).trans (congrArg Neg.neg (f.along_natCast m))

theorem place_rank (negative : Bool) (m : Nat) : f.place (rank negative m) =
    if m = f.infinite then if negative then ⊥ else ⊤
    else .finite (f.along (rank negative m)) := by
  have positive := f.infinite_pos
  cases negative
  · have lower : (m : ℤ) ≠ -f.infinite := by omega
    simp [rank, FloatFormat.place, lower]
  · have upper : -(m : ℤ) ≠ f.infinite := by omega
    simp [rank, FloatFormat.place, upper]

theorem rank_mem (negative : Bool) {m : Nat} (bounded : m ≤ f.infinite) :
    rank negative m ∈ Set.Icc (-f.infinite : ℤ) f.infinite := by
  cases negative <;> exact ⟨by simp only [rank]; omega, by simp only [rank]; omega⟩

theorem partialCompare_eq {x y : Binary f} {p q : Extended} (left : x.value? = some p)
    (right : y.value? = some q) : x.partialCompare y = some (cmp p q) := by
  cases x with
  | nan => cases left
  | number s m hm =>
    cases y with
    | nan => cases right
    | number t n hn =>
      cases left
      cases right
      rw [partialCompare, f.place_strictMonoOn.cmp_map_eq (rank_mem s hm) (rank_mem t hn),
        cmp_eq_compare]

end Binary

namespace FloatFormat.Pattern

variable {f : FloatFormat} (x : f.Pattern)

def number : Binary f := .ofBits f x.toNat

theorem number_eq : x.number = if bounded : x.magnitude ≤ f.infinite then
    .number x.negative x.magnitude bounded else .nan := by
  have bit := Nat.mod_eq_of_lt x.quotient_lt
  simp only [number, Binary.ofBits, x.negative_eq, bit]
  rfl

variable {x}

theorem number_eq_nan_iff : x.number = .nan ↔ x.IsNan := by
  rw [number_eq, isNan_iff]
  split <;> simp_all

theorem exists_number (ordered : ¬ x.IsNan) :
    ∃ bounded, x.number = .number x.negative x.magnitude bounded := by
  have bounded : x.magnitude ≤ f.infinite := by
    rwa [isNan_iff, Nat.not_lt] at ordered
  exact ⟨bounded, by rw [number_eq, dif_pos bounded]⟩

theorem exists_pattern (v : Binary f) : ∃ x : f.Pattern, x.number = v := by
  have width : 2 ^ (1 + f.exponentBits + f.fractionBits) = 2 * f.signBit := by
    cases f <;> rfl
  have pattern (bits : Nat) (fits : bits < 2 * f.signBit) (same : Binary.ofBits f bits = v) :
      ∃ x : f.Pattern, x.number = v := by
    refine ⟨.ofNat _ bits, ?_⟩
    rw [number, BitVec.toNat_ofNat, Nat.mod_eq_of_lt (width ▸ fits), same]
  cases v with
  | nan =>
    have room : f.infinite + 1 < f.signBit := by cases f <;> decide
    refine pattern (f.infinite + 1) (by omega) (dif_neg ?_)
    rw [Nat.mod_eq_of_lt room]
    omega
  | number negative m bounded =>
    have below := Nat.lt_of_le_of_lt bounded f.infinite_lt_signBit
    refine pattern (if negative then f.signBit + m else m) ?_ (Binary.ofBits_of_bits? rfl)
    split <;> omega

theorem parts_of_number {negative : Bool} {m : Nat} {bounded : m ≤ f.infinite}
    (found : x.number = .number negative m bounded) :
    ¬ x.IsNan ∧ x.negative = negative ∧ x.magnitude = m := by
  have ordered : ¬ x.IsNan := by
    rw [← number_eq_nan_iff, found]
    exact nofun
  obtain ⟨_, same⟩ := exists_number ordered
  exact ⟨ordered, Binary.number.inj (same.symm.trans found)⟩

theorem value?_number (x : f.Pattern) : x.number.value? = x.value? := by
  by_cases nan : x.IsNan
  · rw [number_eq_nan_iff.mpr nan, x.value?_eq_none_iff.mpr nan]
    rfl
  · obtain ⟨bounded, same⟩ := exists_number nan
    simp only [same, Binary.value?, Binary.place_rank, Binary.along_rank, value?, if_neg nan,
      isInfinite_iff, x.size_eq, apply_ite some]

theorem bits?_number (ordered : ¬ x.IsNan) : x.number.bits? = some x.toNat := by
  obtain ⟨bounded, same⟩ := exists_number ordered
  have division := Nat.div_add_mod x.toNat f.signBit
  rw [same, Binary.bits?, x.negative_eq, magnitude]
  rcases Nat.le_one_iff_eq_zero_or_eq_one.mp (Nat.le_of_lt_succ x.quotient_lt) with zero | one
  · rw [zero, Nat.mul_zero, Nat.zero_add] at division
    simp [zero, division]
  · rw [one, Nat.mul_one] at division
    simp [one, division]

theorem number_inj {x y : f.Pattern} (ordered : ¬ x.IsNan) (same : x.number = y.number) :
    x = y := by
  have ordered' : ¬ y.IsNan := by rwa [← number_eq_nan_iff, ← same, number_eq_nan_iff]
  apply BitVec.eq_of_toNat_eq
  apply Option.some.inj
  rw [← bits?_number ordered, ← bits?_number ordered', same]

end FloatFormat.Pattern

end Nominal
