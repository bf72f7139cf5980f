import Nominal.Text.Basic

/-! Digits in any base up to sixteen. Digits give back the number that they were written
for, also in capital letters, and they end where the first character stands that is none of
them. -/

namespace Nominal

/-- A text whose characters are all of one kind ends where one of another kind follows. -/
theorem Text.append_inj_of_kind {kind : Char → Bool} {x y s t : Text} {c d : Char}
    (hx : ∀ a ∈ x, kind a = true) (hy : ∀ a ∈ y, kind a = true) (hc : kind c = false)
    (hd : kind d = false) (same : x ++ c :: s = y ++ d :: t) : x = y ∧ c :: s = d :: t := by
  have before := congrArg (List.takeWhile kind) same
  rw [List.takeWhile_append_of_pos hx, List.takeWhile_append_of_pos hy,
    List.takeWhile_cons_of_neg (by simp [hc]), List.takeWhile_cons_of_neg (by simp [hd]),
    List.append_nil, List.append_nil] at before
  subst before
  exact ⟨rfl, List.append_cancel_left same⟩

section

variable {b : Nat} (wide : 1 < b)
include wide

theorem exists_digitChar_of_mem {n : Nat} {c : Char} (mem : c ∈ Nat.toDigits b n) :
    ∃ i < b, c = Nat.digitChar i := by
  induction n using Nat.strongRecOn with
  | ind n ih =>
    rw [Nat.toDigits_eq_if wide] at mem
    split at mem
    · rename_i single
      exact ⟨n, single, List.mem_singleton.mp mem⟩
    · rcases List.mem_append.mp mem with before | last
      · exact ih (n / b) (Nat.div_lt_self (by omega) wide) before
      · exact ⟨n % b, Nat.mod_lt n (by omega), List.mem_singleton.mp last⟩

theorem eq_of_map_toDigits {letter : Char → Char}
    (apart : ∀ i < b, ∀ j < b, letter (Nat.digitChar i) = letter (Nat.digitChar j) → i = j)
    {n m : Nat} (same : (Nat.toDigits b n).map letter = (Nat.toDigits b m).map letter) : n = m := by
  -- The last digit is split off, so the induction goes over quotients by the base.
  induction n using Nat.strongRecOn generalizing m with
  | ind n ih =>
    have lengths : (Nat.toDigits b n).length = (Nat.toDigits b m).length := by
      simpa only [List.length_map] using congrArg List.length same
    have together : n < b ↔ m < b := by
      rw [← Nat.pow_one b, ← Nat.length_toDigits_le_iff wide Nat.one_pos, lengths,
        Nat.length_toDigits_le_iff wide Nat.one_pos]
    by_cases single : n < b
    · have single' := together.mp single
      rw [Nat.toDigits_of_lt_base single, Nat.toDigits_of_lt_base single'] at same
      exact apart n single m single' (List.head_eq_of_cons_eq same)
    · have long : b ≤ n := Nat.le_of_not_lt single
      have long' : b ≤ m := Nat.le_of_not_lt fun small => single (together.mpr small)
      rw [Nat.toDigits_of_base_le wide long, Nat.toDigits_of_base_le wide long', List.map_append,
        List.map_append] at same
      obtain ⟨before, last⟩ := List.append_inj' same rfl
      have high : n / b = m / b := ih (n / b) (Nat.div_lt_self (by omega) wide) before
      have low : n % b = m % b := apart _ (Nat.mod_lt n (by omega)) _ (Nat.mod_lt m (by omega))
        (List.head_eq_of_cons_eq last)
      rw [← Nat.div_add_mod n b, high, low, Nat.div_add_mod]

variable (small : b ≤ 16)
include small

theorem isAlphanum_of_mem_toDigits {n : Nat} {c : Char} (mem : c ∈ Nat.toDigits b n) :
    c.isAlphanum = true := by
  have digits : ∀ i < 16, (Nat.digitChar i).isAlphanum = true := by decide
  obtain ⟨i, below, rfl⟩ := exists_digitChar_of_mem wide mem
  exact digits i (Nat.lt_of_lt_of_le below small)

theorem toDigits_inj {n m : Nat} (same : Nat.toDigits b n = Nat.toDigits b m) : n = m := by
  have apart : ∀ i < 16, ∀ j < 16, id (Nat.digitChar i) = id (Nat.digitChar j) → i = j := by decide
  have apartBelow : ∀ i < b, ∀ j < b, id (Nat.digitChar i) = id (Nat.digitChar j) → i = j :=
    fun i hi j hj => apart i (Nat.lt_of_lt_of_le hi small) j (Nat.lt_of_lt_of_le hj small)
  exact eq_of_map_toDigits wide apartBelow (by rw [same])

theorem upper_toDigits_inj {n m : Nat}
    (same : Text.upper (Nat.toDigits b n) = Text.upper (Nat.toDigits b m)) : n = m := by
  have apart : ∀ i < 16, ∀ j < 16,
      (Nat.digitChar i).toUpper = (Nat.digitChar j).toUpper → i = j := by decide
  have apartBelow : ∀ i < b, ∀ j < b,
      (Nat.digitChar i).toUpper = (Nat.digitChar j).toUpper → i = j :=
    fun i hi j hj => apart i (Nat.lt_of_lt_of_le hi small) j (Nat.lt_of_lt_of_le hj small)
  exact eq_of_map_toDigits wide apartBelow same

end

end Nominal
