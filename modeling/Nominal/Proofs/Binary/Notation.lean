import Nominal.Binary.Text
import Nominal.Proofs.Binary.Decimal

/-! Decimal notation. A written decimal is a row of digits with a point before the last places, if
it has places at all. The reader takes it apart again, since digits are neither signs nor points
nor the beginning of a name. -/

namespace Nominal.Binary

variable {f : FloatFormat}

/-- Digits, with a point before the places of the last of them. -/
inductive Writes : Text → Decimal → Prop
  | whole {digits : Text} (some : digits ≠ []) (decimal : ∀ c ∈ digits, c.isDigit = true) :
      Writes digits ⟨Nat.ofDigitChars 10 digits 0, 0⟩
  | point (whole places : Text) (some : whole ≠ [])
      (decimal : ∀ c ∈ whole ++ places, c.isDigit = true) :
      Writes (whole ++ '.' :: places)
        ⟨Nat.ofDigitChars 10 (whole ++ places) 0, -(places.length : ℤ)⟩

theorem Writes.plain {t : Text} {d : Decimal} (written : Writes t d) :
    ∀ c ∈ t, c.isDigit = true ∨ c = '.' := by
  cases written with
  | whole _ decimal => exact fun c member => .inl (decimal c member)
  | point whole places _ decimal =>
    intro c member
    rcases List.mem_append.mp member with before | after
    · exact .inl (decimal c (List.mem_append_left _ before))
    · rcases List.mem_cons.mp after with rfl | behind
      · exact .inr rfl
      · exact .inl (decimal c (List.mem_append_right _ behind))

theorem takeDigits_append {digits : Text} (decimal : ∀ c ∈ digits, c.isDigit = true) (rest : Text)
    (stop : ∀ c ∈ rest.head?, c.isDigit = false) :
    takeDigits (digits ++ rest) = (digits, rest) := by
  rw [takeDigits, List.takeWhile_append_of_pos decimal, List.dropWhile_append_of_pos decimal]
  cases rest with
  | nil => simp
  | cons c rest =>
    have := stop c rfl
    simp [this]

theorem readDecimal?_of_writes {t : Text} {d : Decimal} (written : Writes t d) :
    readDecimal? t = some d := by
  cases written with
  | whole some decimal =>
    have taken := takeDigits_append decimal [] (by simp)
    rw [List.append_nil] at taken
    simp [readDecimal?, taken, takeFraction, some, readExponent?]
  | point whole places some decimal =>
    have taken := takeDigits_append
      (fun c member => decimal c (List.mem_append_left _ member)) ('.' :: places) (by simp)
    have taken' := takeDigits_append
      (fun c member => decimal c (List.mem_append_right whole member)) [] (by simp)
    rw [List.append_nil] at taken'
    simp [readDecimal?, taken, takeFraction, taken', some, readExponent?]

theorem exists_of_readDecimal? {t : Text} {d : Decimal} (read : readDecimal? t = some d) :
    ∃ c rest, t = c :: rest ∧ (c.isDigit = true ∨ c = '.') := by
  cases t with
  | nil => simp [readDecimal?, takeDigits, takeFraction] at read
  | cons c rest =>
    refine ⟨c, rest, rfl, ?_⟩
    by_contra other
    obtain ⟨letter, point⟩ := not_or.mp other
    simp [readDecimal?, takeDigits, takeFraction, letter, point] at read

theorem toLower_of_isDigit {c : Char} (digit : c.isDigit = true) : c.toLower = c := by
  have last : c.val ≤ '9'.val := of_decide_eq_true (Bool.and_eq_true_iff.mp digit).2
  exact dif_neg fun upper => absurd (UInt32.le_trans upper.1 last) (by decide)

theorem map_toLower_ne {c : Char} (head : c.isDigit = true ∨ c = '.') (rest : Text) {first : Char}
    {name : Text} (letter : first.isDigit = false ∧ first ≠ '.') :
    (c :: rest).map Char.toLower ≠ first :: name := by
  intro same
  have heads : c.toLower = first := (List.cons.inj same).1
  rcases head with digit | rfl
  · rw [toLower_of_isDigit digit] at heads
    rw [← heads, digit] at letter
    exact absurd letter.1 (by decide)
  · exact letter.2 heads.symm

theorem read_eq {t rest : Text} {negative : Bool} {d : Decimal}
    (signed : takeSign t = (negative, rest)) (decimal : readDecimal? rest = some d) :
    read f t = .ok (.number negative (d.nearest f) (d.nearest_le_infinite f)) := by
  obtain ⟨c, rest, rfl, head⟩ := exists_of_readDecimal? decimal
  have nan : (c :: rest).map Char.toLower ≠ "nan".toList := map_toLower_ne head rest (by decide)
  have inf : (c :: rest).map Char.toLower ≠ "inf".toList := map_toLower_ne head rest (by decide)
  have infinity : (c :: rest).map Char.toLower ≠ "infinity".toList :=
    map_toLower_ne head rest (by decide)
  cases t with
  | nil => simp [takeSign] at signed
  | cons first _ =>
    simp only [read, signed, readMagnitude, nan, inf, infinity, decimal, or_self, if_false]

theorem read_of_writes {t : Text} {d : Decimal} (written : Writes t d) (negative : Bool) :
    read f ((if negative then ['-'] else []) ++ t) =
      .ok (.number negative (d.nearest f) (d.nearest_le_infinite f)) := by
  have decimal := readDecimal?_of_writes written
  refine read_eq ?_ decimal
  obtain ⟨c, rest, rfl, head⟩ := exists_of_readDecimal? decimal
  cases negative
  · have minus : c ≠ '-' := by
      rintro rfl
      exact absurd head (by decide)
    have plus : c ≠ '+' := by
      rintro rfl
      exact absurd head (by decide)
    simp [takeSign, minus, plus]
  · rfl

theorem writes_positional (d : Decimal) :
    ∃ d', Writes (positional d) d' ∧ d'.value = d.value := by
  have decimal : ∀ c ∈ Nat.toDigits 10 d.coefficient, c.isDigit = true := fun c =>
    Nat.isDigit_of_mem_toDigits (by decide) (by decide)
  have zeros (n : Nat) : ∀ c ∈ List.replicate n '0', c.isDigit = true := fun c member =>
    (List.mem_replicate.mp member).2 ▸ rfl
  have count : Nat.ofDigitChars 10 (Nat.toDigits 10 d.coefficient) 0 = d.coefficient :=
    Nat.ofDigitChars_ten_toDigits
  have some : Nat.toDigits 10 d.coefficient ≠ [] := Nat.toDigits_ne_nil
  have placed (n : Nat) (power : (n : ℤ) = -d.exponent) :
      (Decimal.mk d.coefficient (-(n : ℤ))).value = d.value := by
    rw [power, neg_neg]
  unfold positional
  -- From here on nothing counts about the digits but the three facts above.
  generalize Nat.toDigits 10 d.coefficient = digits at decimal count some ⊢
  simp only
  split_ifs with whole inside
  · refine ⟨_, .whole (List.append_ne_nil_of_left_ne_nil some _)
      (List.forall_mem_append.mpr ⟨decimal, zeros _⟩), ?_⟩
    rw [Nat.ofDigitChars_append, count, Nat.ofDigitChars_replicate_zero, Decimal.value,
      Decimal.value, zpow_zero, mul_one, mul_comm, Nat.cast_mul, Nat.cast_pow, Nat.cast_ofNat,
      ← zpow_natCast, Int.toNat_of_nonneg whole]
  · have split := List.take_append_drop (digits.length - (-d.exponent).toNat) digits
    refine ⟨_, .point _ _ ?_ (split.symm ▸ decimal), ?_⟩
    · exact List.ne_nil_of_length_pos (by rw [List.length_take]; omega)
    · rw [split, count]
      exact placed _ (by rw [List.length_drop]; omega)
  · refine ⟨_, .point ['0']
      (List.replicate ((-d.exponent).toNat - digits.length) '0' ++ digits)
      (List.cons_ne_nil _ _) (List.forall_mem_append.mpr
        ⟨zeros 1, List.forall_mem_append.mpr ⟨zeros _, decimal⟩⟩), ?_⟩
    have nothing : Nat.ofDigitChars 10 ['0'] 0 = 0 := rfl
    rw [Nat.ofDigitChars_append, Nat.ofDigitChars_append, nothing, Nat.ofDigitChars_replicate_zero,
      Nat.mul_zero, count]
    exact placed _ (by rw [List.length_append, List.length_replicate]; omega)

end Nominal.Binary
