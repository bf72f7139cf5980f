import Nominal.Integer.Arithmetic

/-! Where exact results stay in range. The quotient of two numbers in range stays in
range with a single exception, the least number of a signed format over minus one. From
this follows when the plain operators answer, in terms of the exact result. -/

namespace Nominal

namespace IntFormat

variable {f : IntFormat} {a b : Int}

theorem signed_of_inRange {n : Int} (fits : f.InRange n) (negative : n < 0) : f.signed = true := by
  cases signed : f.signed with
  | true => rfl
  | false =>
    simp only [InRange, min, signed, Bool.false_eq_true, if_false] at fits
    omega

theorem inRange_of_between {n : Int} (fits : f.InRange a)
    (between : 0 ≤ n ∧ n ≤ a ∨ a ≤ n ∧ n ≤ 0) : f.InRange n := by
  have low := f.min_nonpos
  have high := f.max_ge
  unfold InRange at fits ⊢
  omega

theorem natAbs_tdiv_le (a b : Int) : (a.tdiv b).natAbs ≤ a.natAbs := by
  rw [Int.natAbs_tdiv]
  exact Nat.div_le_self _ _

theorem natAbs_tdiv_lt (nonzero : a ≠ 0) (large : 1 < b.natAbs) :
    (a.tdiv b).natAbs < a.natAbs := by
  rw [Int.natAbs_tdiv]
  exact Nat.div_lt_self (Int.natAbs_pos.mpr nonzero) large

theorem inRange_tdiv_iff (fitsLeft : f.InRange a) (fitsRight : f.InRange b) (nonzero : b ≠ 0) :
    f.InRange (a.tdiv b) ↔ ¬ (f.signed = true ∧ a = f.min ∧ b = -1) := by
  have wide := f.half_ge
  have small := natAbs_tdiv_le a b
  obtain ⟨low, high⟩ := fitsLeft
  constructor
  · rintro ⟨-, above⟩ ⟨signed, rfl, rfl⟩
    rw [Int.tdiv_neg, Int.tdiv_one] at above
    simp only [min, max, signed, if_true] at above
    omega
  · intro regular
    cases signed : f.signed with
    | false =>
      obtain ⟨lowRight, -⟩ := fitsRight
      simp only [InRange, min, max, signed, Bool.false_eq_true, if_false] at low high lowRight ⊢
      have nonneg := Int.tdiv_nonneg low lowRight
      omega
    | true =>
      -- A divisor larger than one brings the size of the dividend down, so only the two
      -- divisors of size one can take the quotient to the edge of the range.
      simp only [InRange, min, max, signed, if_true, true_and] at low high regular ⊢
      by_cases flips : b = -1
      · subst flips
        rw [Int.tdiv_neg, Int.tdiv_one]
        omega
      · by_cases keeps : b = 1
        · subst keeps
          rw [Int.tdiv_one]
          omega
        · by_cases nothing : a = 0
          · subst nothing
            rw [Int.zero_tdiv]
            omega
          · have := natAbs_tdiv_lt nothing (show 1 < b.natAbs by omega)
            omega

theorem tmod_between (a b : Int) :
    0 ≤ a.tmod b ∧ a.tmod b ≤ a ∨ a ≤ a.tmod b ∧ a.tmod b ≤ 0 := by
  have size : (a.tmod b).natAbs ≤ a.natAbs := by
    rw [Int.natAbs_tmod]
    exact Nat.mod_le _ _
  rcases Int.le_total 0 a with nonneg | nonpos
  · have := Int.tmod_nonneg b nonneg
    omega
  · have := Int.tmod_nonneg b (show 0 ≤ -a by omega)
    rw [Int.neg_tmod] at this
    omega

end IntFormat

namespace Operator

/-- What an operator owes two integers of a format. A zero divisor comes first. The
least number over minus one overflows, even for a remainder, whose exact result would
be in range. -/
def owed (op : Operator) (f : IntFormat) (a b : Int) : Except Fault Int :=
  if op = .div ∧ b = 0 then .error .divisionByZero
  else if op = .rem ∧ b = 0 then .error .remainderByZero
  else if op = .rem ∧ f.signed = true ∧ a = f.min ∧ b = -1 then .error (.overflow .rem)
  else if f.InRange (op.exact a b) then .ok (op.exact a b)
  else .error (.overflow op)

variable {f : IntFormat} {a b : Int}

theorem inRange_of_owed {op : Operator} {n : Int} (owes : op.owed f a b = .ok n) :
    f.InRange n := by
  unfold owed at owes
  repeat' split at owes
  all_goals cases owes
  assumption

theorem refusal?_of_not_divides {op : Operator} (ring : ¬ op.Divides) (b : Int) :
    op.refusal? b = none :=
  (op.refusal?_eq_none_iff b).mpr fun divides => absurd divides ring

theorem exists_refusal {op : Operator} (divides : op.Divides) (zero : b = 0) :
    ∃ fault, op.refusal? b = some fault := by
  rcases divides with rfl | rfl
  · exact ⟨_, if_pos zero⟩
  · exact ⟨_, if_pos zero⟩

theorem owed_of_refusal {op : Operator} {fault : Fault} (refused : op.refusal? b = some fault) :
    op.owed f a b = .error fault := by
  unfold refusal? at refused
  split at refused
  · obtain ⟨zero, same⟩ := Option.ite_none_right_eq_some.mp refused
    cases same
    exact if_pos ⟨rfl, zero⟩
  · obtain ⟨zero, same⟩ := Option.ite_none_right_eq_some.mp refused
    cases same
    exact (if_neg (by simp)).trans (if_pos ⟨rfl, zero⟩)
  · cases refused

theorem owed_of_regular {op : Operator} (regular : op.Divides → b ≠ 0) :
    op.owed f a b =
      if op = .rem ∧ f.signed = true ∧ a = f.min ∧ b = -1 then .error (.overflow .rem)
      else if f.InRange (op.exact a b) then .ok (op.exact a b)
      else .error (.overflow op) := by
  unfold owed
  rw [if_neg fun ⟨divides, zero⟩ => regular (.inl divides) zero,
    if_neg fun ⟨divides, zero⟩ => regular (.inr divides) zero]

/-- A plain operator answers unless its divisor is zero or its result is out of range,
the remainder of the least number by minus one apart. -/
theorem fits_iff (op : Operator) (fitsLeft : f.InRange a) (fitsRight : f.InRange b)
    (regular : op.Divides → b ≠ 0) :
    op.Fits f a b ↔ f.InRange (op.exact a b) ∧
      ¬ (op = .rem ∧ f.signed = true ∧ a = f.min ∧ b = -1) := by
  unfold Fits
  refine and_congr_right fun _ => ?_
  by_cases rem : op = .rem
  · subst rem
    simp [IntFormat.inRange_tdiv_iff fitsLeft fitsRight (regular (.inr rfl))]
  · simp [rem]

end Operator

namespace FixedInt

variable {f : IntFormat} {op : Operator} {a b : FixedInt f}

theorem apply_of_refusal {fault : Fault} (refused : op.refusal? b.toInt = some fault) :
    a.apply op b = .error fault := by
  unfold apply
  rw [refused]

theorem apply_of_fits (accepted : op.refusal? b.toInt = none) (fits : op.Fits f a.toInt b.toInt) :
    a.apply op b = .ok ⟨op.exact a.toInt b.toInt, fits.1.1, fits.1.2⟩ := by
  unfold apply
  rw [accepted]
  exact dif_pos fits

theorem apply_of_not_fits (accepted : op.refusal? b.toInt = none)
    (misfit : ¬ op.Fits f a.toInt b.toInt) : a.apply op b = .error (.overflow op) := by
  unfold apply
  rw [accepted]
  exact dif_neg misfit

theorem apply_eq_owed (op : Operator) (a b : FixedInt f) :
    (a.apply op b).map toInt = op.owed f a.toInt b.toInt := by
  cases refused : op.refusal? b.toInt with
  | some fault =>
    rw [apply_of_refusal refused, Operator.owed_of_refusal refused]
    rfl
  | none =>
    have regular := (op.refusal?_eq_none_iff b.toInt).mp refused
    rw [Operator.owed_of_regular regular]
    by_cases fits : op.Fits f a.toInt b.toInt
    · obtain ⟨inRange, ordinary⟩ := (op.fits_iff a.inRange b.inRange regular).mp fits
      rw [apply_of_fits refused fits, if_neg ordinary, if_pos inRange]
      rfl
    · rw [apply_of_not_fits refused fits]
      split
      · rename_i special
        rw [special.1]
        rfl
      · rename_i ordinary
        rw [if_neg fun inRange =>
          fits ((op.fits_iff a.inRange b.inRange regular).mpr ⟨inRange, ordinary⟩)]
        rfl

end FixedInt

end Nominal
