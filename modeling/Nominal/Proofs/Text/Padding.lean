import Nominal.Proofs.Interface.Inspection

/-! What a specification makes of a number and of a text. The text that it gives without a width
is filled up with one character on the sides that the alignment says, so the width is reached and
never exceeded. The `0` flag fills a number from within, between its sign and its digits, and so
leaves a numeral of the same number. -/

namespace Nominal

/-- How the fills around a text are shared between its two sides. An odd number of them around a
centred text has its smaller half before the text. -/
structure Alignment.Shares (a : Alignment) (before after : Nat) : Prop where
  left : a = .left → before = 0
  right : a = .right → after = 0
  centre : a = .centre → before = after ∨ before + 1 = after

namespace Spec

variable {s : Spec} {usual : Alignment} {t out : Text}

def Fills (s : Spec) (usual : Alignment) (t out : Text) : Prop :=
  ∃ before after, out = List.replicate before s.fill ++ t ++ List.replicate after s.fill ∧
    before + after = s.width - t.length ∧ (s.align?.getD usual).Shares before after

theorem fills_pad (s : Spec) (usual : Alignment) (t : Text) : s.Fills usual t (s.pad usual t) := by
  refine ⟨_, _, rfl, ?_, ?_⟩
  · cases s.align?.getD usual <;> simp only <;> omega
  · cases s.align?.getD usual with
    | left => exact ⟨fun _ => rfl, nofun, nofun⟩
    | right => exact ⟨nofun, fun _ => Nat.sub_self _, nofun⟩
    | centre =>
      refine ⟨nofun, nofun, fun _ => ?_⟩
      simp only
      omega

theorem fills_iff : s.Fills usual t out ↔ out = s.pad usual t := by
  constructor
  · rintro ⟨before, after, rfl, total, shares⟩
    obtain ⟨before', after', padded, total', shares'⟩ := s.fills_pad usual t
    have same : before = before' ∧ after = after' := by
      cases side : s.align?.getD usual with
      | left =>
        have := shares.left side
        have := shares'.left side
        omega
      | right =>
        have := shares.right side
        have := shares'.right side
        omega
      | centre =>
        have := shares.centre side
        have := shares'.centre side
        omega
    rw [padded, same.1, same.2]
  · rintro rfl
    exact s.fills_pad usual t

theorem Fills.length (fills : s.Fills usual t out) : out.length = max s.width t.length := by
  obtain ⟨before, after, rfl, total, -⟩ := fills
  simp only [List.length_append, List.length_replicate]
  omega

def unsized (s : Spec) : Spec := { s with width := 0 }

theorem inRange_unsized (fits : s.InRange) : s.unsized.InRange := ⟨Nat.zero_le _, fits.2⟩

theorem pad_unsized (s : Spec) (usual : Alignment) (t : Text) : s.unsized.pad usual t = t :=
  pad_of_width rfl usual t

structure WritesNumber (s : Spec) (n : Int) (bare out : Text) : Prop where
  bare_eq : bare = (if s.plus ∧ 0 ≤ n then ['+'] else []) ++ n.repr.toList
  length : out.length = max s.width bare.length
  filled : s.zero = false → s.Fills .right bare out
  zeros : s.zero = true → ∃ sign digits, bare = sign ++ digits ∧
    sign ∈ [[], ['+'], ['-']] ∧ (∀ c ∈ digits, c.isDigit = true) ∧
    out = sign ++ List.replicate (s.width - bare.length) '0' ++ digits

theorem sign_append_toDigits (s : Spec) (n : Int) :
    s.sign (n < 0) ++ Nat.toDigits 10 n.natAbs =
      (if s.plus ∧ 0 ≤ n then ['+'] else []) ++ n.repr.toList := by
  cases n with
  | ofNat m =>
    have written : (Int.ofNat m).repr.toList = Nat.toDigits 10 m := Nat.toList_repr
    rw [written]
    simp [sign]
  | negSucc m =>
    have negative : Int.negSucc m < 0 := Int.negSucc_lt_zero m
    have written : (Int.negSucc m).repr.toList = '-' :: Nat.toDigits 10 (m + 1) := by
      rw [← Nat.toList_repr]
      exact String.toList_append
    rw [written]
    simp [sign, negative]

theorem sign_mem (s : Spec) (negative : Bool) : s.sign negative ∈ [[], ['+'], ['-']] := by
  unfold sign
  cases negative <;> cases s.plus <;> decide

def number (s : Spec) (n : Int) : Text :=
  s.padNumber (s.sign (n < 0)) (Nat.toDigits 10 n.natAbs)

theorem number_unsized (s : Spec) (n : Int) :
    s.unsized.number n = s.sign (n < 0) ++ Nat.toDigits 10 n.natAbs := by
  unfold number padNumber
  split
  · have room : s.unsized.width = 0 := rfl
    rw [room, Nat.zero_sub, List.replicate_zero, List.append_nil]
    rfl
  · exact s.pad_unsized .right _

theorem number_of_zero (zero : s.zero = true) (n : Int) :
    s.number n = s.sign (n < 0) ++
      List.replicate (s.width - (s.unsized.number n).length) '0' ++ Nat.toDigits 10 n.natAbs := by
  rw [number_unsized, number, padNumber, zero]
  rfl

theorem number_of_not_zero (plain : s.zero = false) (n : Int) :
    s.number n = s.pad .right (s.unsized.number n) := by
  rw [number_unsized, number, padNumber, plain]
  rfl

theorem writesNumber (s : Spec) (n : Int) : s.WritesNumber n (s.unsized.number n) (s.number n) where
  bare_eq := by rw [number_unsized, sign_append_toDigits]
  length := by
    cases zero : s.zero with
    | false =>
      rw [number_of_not_zero zero]
      exact (s.fills_pad .right _).length
    | true =>
      rw [number_of_zero zero, number_unsized]
      simp only [List.length_append, List.length_replicate]
      omega
  filled zero := by
    rw [number_of_not_zero zero]
    exact s.fills_pad .right _
  zeros zero := ⟨_, _, s.number_unsized n, s.sign_mem _,
    fun _ mem => Nat.isDigit_of_mem_toDigits (by decide) (by decide) mem, number_of_zero zero n⟩

theorem exists_zeros (n : Int) (solid : s.width ≤ (s.unsized.number n).length ∨ s.zero = true) :
    ∃ k, s.number n = s.sign (n < 0) ++ List.replicate k '0' ++ Nat.toDigits 10 n.natAbs := by
  cases zero : s.zero with
  | true => exact ⟨_, number_of_zero zero n⟩
  | false =>
    have room : s.width ≤ (s.unsized.number n).length := by simpa [zero] using solid
    -- Without the flag only fills could stand around the number, and none has room.
    refine ⟨0, ?_⟩
    rw [number_of_not_zero zero, List.replicate_zero, List.append_nil, ← number_unsized]
    obtain ⟨before, after, padded, total, -⟩ := s.fills_pad .right (s.unsized.number n)
    obtain ⟨rfl, rfl⟩ : before = 0 ∧ after = 0 := by omega
    simpa using padded

structure WritesText (s : Spec) (t bare out : Text) : Prop where
  uncut : s.precision? = none → bare = t
  cut : ∀ p, s.precision? = some p → bare = t.take (min p t.length)
  length : out.length = max s.width bare.length
  filled : s.Fills .left bare out

theorem padText_eq (s : Spec) (t : Text) : s.padText t = s.pad .left (s.unsized.padText t) := by
  unfold padText
  have precision : s.unsized.precision? = s.precision? := rfl
  rw [precision]
  cases s.precision? <;> simp only [pad_unsized]

theorem writesText (s : Spec) (t : Text) : s.WritesText t (s.unsized.padText t) (s.padText t) where
  uncut whole := by
    have precision : s.unsized.precision? = none := whole
    rw [padText, precision]
    exact s.pad_unsized .left t
  cut p shortened := by
    have precision : s.unsized.precision? = some p := shortened
    rw [padText, precision, ← List.take_eq_take_min]
    exact s.pad_unsized .left _
  length := by
    rw [s.padText_eq t]
    exact (s.fills_pad .left _).length
  filled := by
    rw [s.padText_eq t]
    exact s.fills_pad .left _

end Spec

theorem ofDigitChars_zeros (k : Nat) (digits : Text) :
    Nat.ofDigitChars 10 (List.replicate k '0' ++ digits) 0 = Nat.ofDigitChars 10 digits 0 := by
  rw [Nat.ofDigitChars_append, Nat.ofDigitChars_replicate_zero, Nat.mul_zero]

namespace FixedInt

variable {f : IntFormat}

theorem read_zeros (s : Spec) (a : FixedInt f) (k : Nat) :
    read f (s.sign (a.toInt < 0) ++ List.replicate k '0' ++ Nat.toDigits 10 a.toInt.natAbs) =
      .ok a := by
  have digits : ∀ c ∈ List.replicate k '0' ++ Nat.toDigits 10 a.toInt.natAbs, c.isDigit = true := by
    intro c mem
    rcases List.mem_append.mp mem with zero | digit
    · rw [List.eq_of_mem_replicate zero]
      rfl
    · exact Nat.isDigit_of_mem_toDigits (by decide) (by decide) digit
  have nonempty : List.replicate k '0' ++ Nat.toDigits 10 a.toInt.natAbs ≠ [] :=
    List.append_ne_nil_of_right_ne_nil _ Nat.toDigits_ne_nil
  have value : Nat.ofDigitChars 10 (List.replicate k '0' ++ Nat.toDigits 10 a.toInt.natAbs) 0 =
      a.toInt.natAbs := by
    rw [ofDigitChars_zeros, Nat.ofDigitChars_ten_toDigits]
  rw [read_eq_ok_iff, List.append_assoc]
  refine ⟨s.sign (a.toInt < 0), ?_, _, rfl, nonempty, digits, ?_, a.inRange⟩
  · unfold Spec.sign IntFormat.signs
    by_cases negative : a.toInt < 0
    · simp [negative, IntFormat.signed_of_inRange a.inRange negative]
    · cases s.plus <;> cases f.signed <;> simp [negative]
  · unfold signedValue
    rw [value]
    by_cases negative : a.toInt < 0
    · simp only [Spec.sign, negative, decide_true, if_true]
      omega
    · have unsigned : s.sign (a.toInt < 0) ≠ ['-'] := by
        cases plus : s.plus <;> simp [Spec.sign, negative, plus]
      simp only [unsigned, decide_false, Bool.false_eq_true, if_false]
      omega

end FixedInt

end Nominal
