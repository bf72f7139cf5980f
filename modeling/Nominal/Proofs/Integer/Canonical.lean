import Nominal.Proofs.Integer.Numeral

/-! The canonical spelling of an integer. Of all the numerals with one value a single one
has no plus sign, no superfluous zeros and no sign before a zero. This is the one that is
written, so writing undoes reading up to the spelling, and reading undoes writing. -/

namespace Nominal

def trimZeros : Text → Text
  | '0' :: c :: rest => trimZeros (c :: rest)
  | t => t

/-- A numeral without a plus sign and without superfluous zeros. Zero has no sign. -/
def canonical : Text → Text
  | '+' :: digits => trimZeros digits
  | '-' :: digits => if trimZeros digits = ['0'] then ['0'] else '-' :: trimZeros digits
  | digits => trimZeros digits

example : canonical "+0070".toList = "70".toList ∧ canonical "-000".toList = "0".toList := by decide

theorem toNat_digit {c : Char} (digit : c.isDigit = true) : 48 ≤ c.toNat ∧ c.toNat ≤ 57 :=
  Char.isDigit_iff_toNat.mp digit

theorem toDigits_digit {c : Char} (digit : c.isDigit = true) :
    Nat.toDigits 10 (c.toNat - '0'.toNat) = [c] := by
  obtain ⟨low, high⟩ := toNat_digit digit
  have zero : '0'.toNat = 48 := rfl
  have code : (Nat.digitChar (c.toNat - '0'.toNat)).toNat = c.toNat := by
    rw [Nat.toNat_digitChar_of_lt_ten (by omega)]
    omega
  rw [Nat.toDigits_of_lt_base (by omega), Char.toNat_inj.mp code]

/-- Digits after a value other than zero are the last digits of the value that they make. -/
theorem toDigits_ofDigitChars_of_pos {value : Nat} (positive : 0 < value) {digits : Text}
    (all : ∀ c ∈ digits, c.isDigit = true) :
    Nat.toDigits 10 (Nat.ofDigitChars 10 digits value) = Nat.toDigits 10 value ++ digits := by
  -- The value read so far varies, and stays positive by what each digit adds.
  induction digits generalizing value with
  | nil => rw [Nat.ofDigitChars_nil, List.append_nil]
  | cons c rest ih =>
    have digit := all c List.mem_cons_self
    obtain ⟨low, high⟩ := toNat_digit digit
    have zero : '0'.toNat = 48 := rfl
    have joined := Nat.toDigits_append_toDigits (show 1 < 10 by decide) positive
      (show c.toNat - '0'.toNat < 10 by omega)
    rw [toDigits_digit digit] at joined
    rw [Nat.ofDigitChars_cons, ih (by omega) fun c mem => all c (List.mem_cons_of_mem _ mem),
      ← joined, List.append_assoc]
    rfl

theorem toDigits_ofDigitChars {digits : Text} (nonempty : digits ≠ [])
    (all : ∀ c ∈ digits, c.isDigit = true) :
    Nat.toDigits 10 (Nat.ofDigitChars 10 digits 0) = trimZeros digits := by
  fun_induction trimZeros digits with
  | case1 c rest ih =>
    rw [Nat.ofDigitChars_cons]
    exact ih (List.cons_ne_nil _ _) fun c mem => all c (List.mem_cons_of_mem _ mem)
  | case2 t regular =>
    obtain ⟨c, rest, rfl⟩ := List.exists_cons_of_ne_nil nonempty
    have digit := all c List.mem_cons_self
    have first : 10 * 0 + (c.toNat - '0'.toNat) = c.toNat - '0'.toNat := by omega
    rw [Nat.ofDigitChars_cons, first]
    cases rest with
    | nil => exact toDigits_digit digit
    | cons d rest =>
      have leading : c ≠ '0' := fun same => regular d rest (by rw [same])
      have positive : 0 < c.toNat - '0'.toNat := by
        have other : c.toNat ≠ '0'.toNat := fun same => leading (Char.toNat_inj.mp same)
        have zero : '0'.toNat = 48 := rfl
        obtain ⟨low, -⟩ := toNat_digit digit
        omega
      rw [toDigits_ofDigitChars_of_pos positive fun c mem => all c (List.mem_cons_of_mem _ mem),
        toDigits_digit digit]
      rfl

theorem toDigits_eq_zero_iff {n : Nat} : Nat.toDigits 10 n = ['0'] ↔ n = 0 := by
  constructor
  · intro written
    calc n
      _ = Nat.ofDigitChars 10 (Nat.toDigits 10 n) 0 := Nat.ofDigitChars_ten_toDigits.symm
      _ = 0 := by rw [written]; rfl
  · rintro rfl
    rfl

theorem canonical_of_digits {digits : Text} (nonempty : digits ≠ [])
    (all : ∀ c ∈ digits, c.isDigit = true) : canonical digits = trimZeros digits := by
  obtain ⟨c, rest, rfl⟩ := List.exists_cons_of_ne_nil nonempty
  have digit := all c List.mem_cons_self
  unfold canonical
  split
  · rename_i same
    cases same
    cases digit
  · rename_i same
    cases same
    cases digit
  · rfl

theorem Spec.pad_of_width {s : Spec} (width : s.width = 0) (usual : Alignment) (t : Text) :
    s.pad usual t = t := by
  unfold pad
  cases s.align?.getD usual <;> simp [width]

theorem Spec.pad_plain (usual : Alignment) (t : Text) : Spec.plain.pad usual t = t :=
  Spec.pad_of_width rfl usual t

theorem Spec.padText_plain (t : Text) : Spec.plain.padText t = t := Spec.pad_plain .left t

namespace FixedInt

variable {f : IntFormat}

theorem display_plain (a : FixedInt f) :
    a.display Spec.plain =
      (if a.toInt < 0 then ['-'] else []) ++ Nat.toDigits 10 a.toInt.natAbs := by
  have sign : Spec.plain.sign (a.toInt < 0) = if a.toInt < 0 then ['-'] else [] := by
    simp [Spec.sign, Spec.plain]
  rw [← sign]
  exact Spec.pad_plain .right _

theorem display_plain_of_nonneg {a : FixedInt f} {n : Nat} (value : a.toInt = n) :
    a.display Spec.plain = Nat.toDigits 10 n := by
  rw [display_plain, value, if_neg (by omega), Int.natAbs_natCast]
  rfl

theorem display_plain_of_neg {a : FixedInt f} {n : Nat} (value : a.toInt = -n) (positive : 0 < n) :
    a.display Spec.plain = '-' :: Nat.toDigits 10 n := by
  rw [display_plain, value, if_pos (by omega), Int.natAbs_neg, Int.natAbs_natCast]
  rfl

theorem numeral_display (a : FixedInt f) : f.Numeral (a.display Spec.plain) a.toInt := by
  have all : ∀ c ∈ Nat.toDigits 10 a.toInt.natAbs, c.isDigit = true := fun c mem =>
    Nat.isDigit_of_mem_toDigits (by decide) (by decide) mem
  by_cases negative : a.toInt < 0
  · have signed : f.signed = true := by
      cases signed : f.signed with
      | true => rfl
      | false =>
        have low := a.min_le
        simp only [IntFormat.min, signed, Bool.false_eq_true, if_false] at low
        omega
    refine ⟨['-'], by simp [IntFormat.signs, signed], _, ?_, Nat.toDigits_ne_nil, all, ?_, a.inRange⟩
    · rw [display_plain, if_pos negative]
    · show a.toInt = -(Nat.ofDigitChars 10 (Nat.toDigits 10 a.toInt.natAbs) 0 : Int)
      rw [Nat.ofDigitChars_ten_toDigits]
      omega
  · refine ⟨[], ?_, _, ?_, Nat.toDigits_ne_nil, all, ?_, a.inRange⟩
    · unfold IntFormat.signs
      split <;> exact List.mem_cons_self
    · rw [display_plain, if_neg negative]
    · show a.toInt = (Nat.ofDigitChars 10 (Nat.toDigits 10 a.toInt.natAbs) 0 : Int)
      rw [Nat.ofDigitChars_ten_toDigits]
      omega

theorem read_display (a : FixedInt f) : read f (a.display Spec.plain) = .ok a :=
  read_eq_ok_iff.mpr (numeral_display a)

theorem display_of_read {s : Text} {a : FixedInt f} (accepted : read f s = .ok a) :
    a.display Spec.plain = canonical s := by
  obtain ⟨sign, mem, digits, rfl, nonempty, all, value, -⟩ := read_eq_ok_iff.mp accepted
  have trimmed := toDigits_ofDigitChars nonempty all
  have possible : sign = [] ∨ sign = ['+'] ∨ sign = ['-'] := by
    unfold IntFormat.signs at mem
    split at mem <;> simp only [List.mem_cons, List.not_mem_nil, or_false] at mem
    · exact mem
    · exact mem.imp_right .inl
  rcases possible with rfl | rfl | rfl
  · rw [display_plain_of_nonneg value, trimmed]
    exact (canonical_of_digits nonempty all).symm
  · rw [display_plain_of_nonneg value, trimmed]
    rfl
  · have value : a.toInt = -(Nat.ofDigitChars 10 digits 0 : Int) := value
    show _ = if trimZeros digits = ['0'] then ['0'] else '-' :: trimZeros digits
    rw [← trimmed]
    by_cases zero : Nat.ofDigitChars 10 digits 0 = 0
    · have nothing : a.toInt = (0 : Nat) := by rw [value, zero]; rfl
      rw [display_plain_of_nonneg nothing, if_pos (toDigits_eq_zero_iff.mpr zero)]
      rfl
    · rw [display_plain_of_neg value (Nat.pos_of_ne_zero zero),
        if_neg fun written => zero (toDigits_eq_zero_iff.mp written)]

end FixedInt

end Nominal
