import Mathlib.Algebra.Order.Round
import Mathlib.Data.Rat.Floor
import Mathlib.Tactic.Linarith
import Mathlib.Tactic.NormNum
import Nominal.Conversion
import Nominal.Proofs.Integer.Plain

/-! Yards as the nearest whole number of meters. Only the product with the factor can leave the
range: no multiple of the factor lies so close to the greatest number that the half cannot be
added to it. Where the product fits, the result is the length rounded to the nearest integer,
and of two integers that are equally near the greater one. -/

namespace Nominal

variable {f : IntFormat}

theorem FixedInt.exists_euclideanDiv (a : FixedInt f) {b : FixedInt f} (positive : 0 < b.toInt) :
    ∃ q, a.euclideanDiv b = .ok q ∧ q.toInt = a.toInt / b.toInt := by
  have between : 0 ≤ a.toInt / b.toInt ∧ a.toInt / b.toInt ≤ a.toInt ∨
      a.toInt ≤ a.toInt / b.toInt ∧ a.toInt / b.toInt ≤ 0 := by
    rcases Int.le_total 0 a.toInt with nonneg | nonpos
    · exact .inl ⟨Int.ediv_nonneg nonneg positive.le, Int.ediv_le_self _ nonneg⟩
    · have below : a.toInt / b.toInt ≤ 0 := Int.ediv_nonpos_of_nonpos_of_neg nonpos positive
      have shrinks : a.toInt ≤ a.toInt / b.toInt :=
        (Int.le_ediv_iff_mul_le positive).mpr (mul_le_of_one_le_right nonpos positive)
      exact .inr ⟨shrinks, below⟩
  have fits := IntFormat.inRange_of_between a.inRange between
  refine ⟨⟨_, fits.1, fits.2⟩, ?_, rfl⟩
  unfold euclideanDiv
  rw [if_neg positive.ne', ofInt?, dif_pos fits]

namespace Conversion

/-- The nearest whole number of meters, and of two the greater one. -/
structure Rounded (yards meters : Int) : Prop where
  low : 10000 * meters - 5000 ≤ 9144 * yards
  high : 9144 * yards < 10000 * meters + 5000

def exactMeters (yards : Int) : ℚ := 0.9144 * yards

def Halfway (yards : Int) : Prop := ∃ k : Int, exactMeters yards = k + 1 / 2

variable {yards yards' meters meters' : Int}

theorem rounded_iff : Rounded yards meters ↔ meters = (yards * 9144 + 5000) / 10000 := by
  constructor
  · rintro ⟨low, high⟩
    omega
  · rintro rfl
    constructor <;> omega

theorem rounded_iff_eq_round : Rounded yards meters ↔ meters = round (exactMeters yards) := by
  rw [eq_comm, round_eq_iff, Set.mem_Ico, exactMeters]
  constructor
  · rintro ⟨low, high⟩
    have low : (10000 * meters - 5000 : ℚ) ≤ 9144 * yards := by exact_mod_cast low
    have high : (9144 * yards : ℚ) < 10000 * meters + 5000 := by exact_mod_cast high
    constructor <;> linarith
  · rintro ⟨low, high⟩
    have low : (10000 * meters - 5000 : ℚ) ≤ 9144 * yards := by linarith
    have high : (9144 * yards : ℚ) < 10000 * meters + 5000 := by linarith
    exact ⟨by exact_mod_cast low, by exact_mod_cast high⟩

theorem halfway_iff : Halfway yards ↔ ∃ k : Int, 9144 * yards = 10000 * k + 5000 := by
  refine exists_congr fun k => ?_
  rw [exactMeters]
  constructor
  · intro half
    have half : (9144 * yards : ℚ) = 10000 * k + 5000 := by linarith
    exact_mod_cast half
  · intro half
    have half : (9144 * yards : ℚ) = 10000 * k + 5000 := by exact_mod_cast half
    linarith

theorem Rounded.mono (rounded : Rounded yards meters) (rounded' : Rounded yards' meters')
    (le : yards ≤ yards') : meters ≤ meters' := by
  obtain ⟨low, -⟩ := rounded
  obtain ⟨-, high⟩ := rounded'
  omega

theorem Rounded.natAbs_le (rounded : Rounded yards meters) : meters.natAbs ≤ yards.natAbs := by
  obtain ⟨low, high⟩ := rounded
  omega

/-- Only what lies halfway does not round to the other side as its opposite does. -/
theorem Rounded.neg (rounded : Rounded yards meters) (opposite : Rounded (-yards) meters') :
    (Halfway yards → meters' = -meters + 1) ∧ (¬ Halfway yards → meters' = -meters) := by
  obtain ⟨low, high⟩ := rounded
  obtain ⟨low', high'⟩ := opposite
  rw [halfway_iff]
  constructor
  · rintro ⟨k, half⟩
    omega
  · intro apart
    have atLow : 9144 * yards ≠ 10000 * (meters - 1) + 5000 := fun half => apart ⟨_, half⟩
    omega

def Fits (yards : Int) : Prop := IntFormat.int32.InRange (yards * 9144)

theorem Fits.raised (fits : Fits yards) : IntFormat.int32.InRange (yards * 9144 + 5000) := by
  obtain ⟨low, high⟩ := fits
  have least : IntFormat.int32.min = -2147483648 := by decide
  have greatest : IntFormat.int32.max = 2147483647 := by decide
  -- The greatest product is 2147477544, which leaves room for 6103.
  constructor <;> omega

theorem Fits.neg (fits : Fits yards) : Fits (-yards) := by
  obtain ⟨low, high⟩ := fits
  have least : IntFormat.int32.min = -2147483648 := by decide
  have greatest : IntFormat.int32.max = 2147483647 := by decide
  constructor <;> omega

theorem Fits.inRange (fits : Fits yards) : IntFormat.int32.InRange yards := by
  refine IntFormat.inRange_of_between fits ?_
  omega

variable {y : Wrapped Catalogue.yardTag (FixedInt .int32)}

theorem exists_scaled (fits : Fits y.value.toInt) :
    ∃ scaled, y.value.apply .mul metersPerYard = .ok scaled ∧
      scaled.toInt = y.value.toInt * 9144 := by
  have product : IntFormat.int32.InRange (Operator.mul.exact y.value.toInt metersPerYard.toInt) :=
    fits
  exact (Arithmetic.IsPlain.ofFormat .int32).exists_apply (by decide) product

theorem exists_raised {scaled : FixedInt .int32} (product : scaled.toInt = y.value.toInt * 9144) :
    ∃ raised, scaled.apply .add halfPrecision = .ok raised ∧
      raised.toInt = y.value.toInt * 9144 + 5000 := by
  have fits : Fits y.value.toInt := by
    rw [Fits, ← product]
    exact scaled.inRange
  have sum : Operator.add.exact scaled.toInt halfPrecision.toInt = y.value.toInt * 9144 + 5000 := by
    rw [product]
    rfl
  have room : IntFormat.int32.InRange (Operator.add.exact scaled.toInt halfPrecision.toInt) := by
    rw [sum]
    exact fits.raised
  rw [← sum]
  exact (Arithmetic.IsPlain.ofFormat .int32).exists_apply (by decide) room

theorem exists_yardsToMeters (fits : Fits y.value.toInt) :
    ∃ m, yardsToMeters y = .ok m ∧ Rounded y.value.toInt m.value.toInt := by
  obtain ⟨scaled, made, product⟩ := exists_scaled fits
  obtain ⟨raised, added, sum⟩ := exists_raised product
  obtain ⟨meters, divided, quotient⟩ := raised.exists_euclideanDiv (b := precision) (by decide)
  refine ⟨⟨meters⟩, ?_, ?_⟩
  · simp only [yardsToMeters, bind, Except.bind, made, added, divided]
  · rw [rounded_iff, quotient, sum]
    rfl

theorem yardsToMeters_of_not_fits (leaves : ¬ Fits y.value.toInt) :
    yardsToMeters y = .error (.overflow .mul) := by
  have product : ¬ IntFormat.int32.InRange
      (Operator.mul.exact y.value.toInt metersPerYard.toInt) := leaves
  have stopped : y.value.apply .mul metersPerYard = .error (.overflow .mul) :=
    (Arithmetic.IsPlain.ofFormat .int32).apply_of_not_inRange (by decide) product
  simp only [yardsToMeters, bind, Except.bind, stopped]

theorem fits_of_ok {m : Wrapped Catalogue.meterTag (FixedInt .int32)}
    (made : yardsToMeters y = .ok m) : Fits y.value.toInt := by
  by_contra leaves
  rw [yardsToMeters_of_not_fits leaves] at made
  cases made

theorem rounded_of_ok {m : Wrapped Catalogue.meterTag (FixedInt .int32)}
    (made : yardsToMeters y = .ok m) : Rounded y.value.toInt m.value.toInt := by
  obtain ⟨m', made', rounded⟩ := exists_yardsToMeters (fits_of_ok made)
  cases made.symm.trans made'
  exact rounded

structure Converts (y : Wrapped Catalogue.yardTag (FixedInt .int32))
    (m : Wrapped Catalogue.meterTag (FixedInt .int32)) : Prop where
  returned : yardsToMeters y = .ok m
  only : ∀ r, Rounded y.value.toInt r ↔ r = m.value.toInt
  round : m.value.toInt = round (exactMeters y.value.toInt)
  smaller : m.value.toInt.natAbs ≤ y.value.toInt.natAbs
  mono : ∀ y' m', yardsToMeters y' = .ok m' →
    y.value.toInt ≤ y'.value.toInt → m.value.toInt ≤ m'.value.toInt
  opposite : ∃ back m', y.value.neg = .ok back ∧ yardsToMeters ⟨back⟩ = .ok m' ∧
    (Halfway y.value.toInt → m'.value.toInt = -m.value.toInt + 1) ∧
    (¬ Halfway y.value.toInt → m'.value.toInt = -m.value.toInt)

theorem exists_converts (fits : Fits y.value.toInt) : ∃ m, Converts y m := by
  obtain ⟨m, returned, rounded⟩ := exists_yardsToMeters fits
  have flips : IntFormat.int32.InRange (-y.value.toInt) := fits.neg.inRange
  let back : FixedInt .int32 := ⟨-y.value.toInt, flips.1, flips.2⟩
  have negated : y.value.neg = .ok back := dif_pos flips
  obtain ⟨m', returned', rounded'⟩ :
      ∃ m', yardsToMeters ⟨back⟩ = .ok m' ∧ Rounded back.toInt m'.value.toInt :=
    exists_yardsToMeters fits.neg
  refine ⟨m, returned, fun r => ?_, rounded_iff_eq_round.mp rounded, rounded.natAbs_le,
    fun y' m' made => rounded.mono (rounded_of_ok made), back, m', negated, returned',
    rounded.neg rounded'⟩
  rw [rounded_iff, ← rounded_iff.mp rounded]

/-- A conversion stops with a fault just where the product with the factor is out of range, and
then with that of a multiplication. Everywhere else it returns the only whole number of meters that
lies within half a meter of the length, a half below it counted in and a half above it not. -/
theorem yardsToMeters_nearest (y : Wrapped Catalogue.yardTag (FixedInt .int32)) :
    ((∃ fault, yardsToMeters y = .error fault) ↔
        ¬ IntFormat.int32.InRange (y.value.toInt * 9144)) ∧
      (∀ fault, yardsToMeters y = .error fault →
        fault.message = "attempt to multiply with overflow") ∧
      (∀ scaled, y.value.apply .mul metersPerYard = .ok scaled →
        ∃ raised, scaled.apply .add halfPrecision = .ok raised) ∧
      (IntFormat.int32.InRange (y.value.toInt * 9144) → ∃ m, Converts y m) := by
  refine ⟨⟨?_, ?_⟩, fun fault stopped => ?_, fun scaled made => ?_, exists_converts⟩
  · rintro ⟨fault, stopped⟩ fits
    obtain ⟨m, returned, -⟩ := exists_yardsToMeters fits
    cases returned.symm.trans stopped
  · exact fun leaves => ⟨_, yardsToMeters_of_not_fits leaves⟩
  · by_cases fits : Fits y.value.toInt
    · obtain ⟨m, returned, -⟩ := exists_yardsToMeters fits
      cases returned.symm.trans stopped
    · cases (yardsToMeters_of_not_fits fits).symm.trans stopped
      rfl
  · have product : scaled.toInt = Operator.mul.exact y.value.toInt metersPerYard.toInt :=
      (Arithmetic.IsPlain.ofFormat .int32).number_of_apply (by decide) made
    obtain ⟨raised, added, -⟩ := exists_raised product
    exact ⟨raised, added⟩

/-- The length that lies halfway and its opposite, and the first length whose product is out of
range. -/
theorem yardsToMeters_nearest_halfway :
    let y : Wrapped Catalogue.yardTag (FixedInt .int32) := ⟨FixedInt.clamp .int32 (-625)⟩
    let long : Wrapped Catalogue.yardTag (FixedInt .int32) := ⟨FixedInt.clamp .int32 234852⟩
    IntFormat.int32.InRange (y.value.toInt * 9144) ∧ Halfway y.value.toInt ∧
      (∃ m, Converts y m ∧ m.value.toInt = -571) ∧
      ∃ fault, yardsToMeters long = .error fault := by
  intro y long
  obtain ⟨-, -, -, converts⟩ := yardsToMeters_nearest y
  obtain ⟨stops, -⟩ := yardsToMeters_nearest long
  have fits : IntFormat.int32.InRange (y.value.toInt * 9144) := by decide
  obtain ⟨m, converted⟩ := converts fits
  refine ⟨fits, halfway_iff.mpr ⟨-572, rfl⟩, ⟨m, converted, ?_⟩, stops.mpr (by decide)⟩
  exact ((converted.only (-571)).mp ⟨by decide, by decide⟩).symm

end Conversion

end Nominal
