import Nominal.Proofs.Binary.Decimal

/-! Shortest decimals. Whatever has few digits is on one side of the two neighbours of an exact
decimal with as many digits, so if any such decimal is read as a number, then a neighbour is, and
one that is no farther away. Seventeen digits are always enough, for their step is less than the
distance between the half-ways to the numbers before and after. -/

namespace Nominal

namespace Decimal

variable {f : FloatFormat}

section Neighbours

variable (d : Decimal) (dropped : Nat)

def multiple (c : Nat) : Decimal := ⟨c, d.exponent + dropped⟩

def below : Decimal := d.multiple dropped (d.coefficient / 10 ^ dropped)

def above : Decimal := d.multiple dropped (d.coefficient / 10 ^ dropped + 1)

theorem value_multiple (c : Nat) :
    (d.multiple dropped c).value = (c * 10 ^ dropped : ℕ) * 10 ^ d.exponent := by
  rw [value, multiple, zpow_add₀ (by norm_num), zpow_natCast]
  push_cast
  ring

theorem multiple_le_iff (c : Nat) :
    (d.multiple dropped c).value ≤ d.value ↔ c ≤ d.coefficient / 10 ^ dropped := by
  rw [value_multiple, value, mul_le_mul_iff_left₀ (by positivity), Nat.cast_le,
    Nat.le_div_iff_mul_le (by positivity)]

theorem multiple_mono {c c' : Nat} (le : c ≤ c') :
    (d.multiple dropped c).value ≤ (d.multiple dropped c').value :=
  mul_le_mul_of_nonneg_right (mod_cast le) (by positivity)

theorem below_le : (d.below dropped).value ≤ d.value := (d.multiple_le_iff dropped _).mpr le_rfl

theorem lt_above : d.value < (d.above dropped).value := by
  rw [← not_le]
  exact (d.multiple_le_iff dropped _).not.mpr (Nat.not_succ_le_self _)

theorem above_sub_below :
    (d.above dropped).value - (d.below dropped).value = 10 ^ dropped * 10 ^ d.exponent := by
  rw [above, below, value_multiple, value_multiple]
  push_cast
  ring

theorem below_zero : d.below 0 = d := by
  rw [below, multiple, pow_zero, Nat.div_one, Nat.cast_zero, add_zero]

theorem nearer_iff : 2 * (d.coefficient % 10 ^ dropped) < 10 ^ dropped ↔
    |(d.below dropped).value - d.value| < |(d.above dropped).value - d.value| := by
  have power : (0 : ℚ) < 10 ^ d.exponent := by positivity
  have down : d.value - (d.below dropped).value =
      (d.coefficient % 10 ^ dropped : ℕ) * 10 ^ d.exponent := by
    rw [below, value_multiple, value, ← sub_mul]
    congr 1
    rw [sub_eq_iff_eq_add]
    exact_mod_cast (Nat.mod_add_div' _ _).symm
  have up : (d.above dropped).value - d.value =
      (10 ^ dropped - (d.coefficient % 10 ^ dropped : ℕ)) * 10 ^ d.exponent := by
    linarith [d.above_sub_below dropped]
  rw [abs_sub_comm, abs_of_nonneg (sub_nonneg.mpr (d.below_le dropped)),
    abs_of_pos (sub_pos.mpr (d.lt_above dropped)), down, up, mul_lt_mul_iff_left₀ power,
    lt_sub_iff_add_lt, ← two_mul]
  exact_mod_cast Iff.rfl

variable {d dropped}

/-- A decimal of few digits is a multiple of the last place that is kept, or else it is below the
power of ten that the longer one starts with. -/
theorem exists_multiple {t : Decimal} {k : Nat} (short : t.length ≤ k) (fewer : k < d.length) :
    ∃ c, t.value = (d.multiple (d.length - k) c).value ∨
      t.value ≤ (d.multiple (d.length - k) c).value ∧
        (d.multiple (d.length - k) c).value ≤ d.value := by
  have one := t.length_pos
  -- On a finer grid so few digits do not reach the power of ten that `d` starts with.
  rcases lt_or_ge t.exponent (d.exponent + (d.length - k : ℕ)) with finer | coarser
  · have nonzero := coefficient_ne_zero (by omega : 1 < d.length)
    have power : (d.multiple (d.length - k) (10 ^ (k - 1))).value =
        10 ^ (d.length + d.exponent - 1) := by
      rw [value, multiple]
      push_cast
      rw [← zpow_natCast, ← zpow_add₀ (by norm_num)]
      congr 1
      omega
    refine ⟨10 ^ (k - 1), .inr ⟨?_, power ▸ le_value nonzero⟩⟩
    rw [power]
    exact t.value_lt.le.trans (zpow_le_zpow_right₀ (by norm_num) (by omega))
  · obtain ⟨n, same⟩ := Int.le.dest coarser
    refine ⟨t.coefficient * 10 ^ n, .inl ?_⟩
    rw [value, value, multiple, ← same, zpow_add₀ (by norm_num), zpow_natCast]
    push_cast
    ring

theorem le_below {t : Decimal} {k : Nat} (short : t.length ≤ k) (fewer : k < d.length)
    (le : t.value ≤ d.value) : t.value ≤ (d.below (d.length - k)).value := by
  have kept {c : Nat} (le : (d.multiple (d.length - k) c).value ≤ d.value) :
      (d.multiple (d.length - k) c).value ≤ (d.below (d.length - k)).value :=
    d.multiple_mono _ ((d.multiple_le_iff _ c).mp le)
  obtain ⟨c, same | ⟨low, high⟩⟩ := exists_multiple short fewer
  · rw [same] at le ⊢
    exact kept le
  · exact low.trans (kept high)

theorem above_le {t : Decimal} {k : Nat} (short : t.length ≤ k) (fewer : k < d.length)
    (less : d.value < t.value) : (d.above (d.length - k)).value ≤ t.value := by
  obtain ⟨c, same | ⟨low, high⟩⟩ := exists_multiple short fewer
  · rw [same] at less ⊢
    exact d.multiple_mono _ (Nat.lt_of_not_le ((d.multiple_le_iff _ c).not.mp less.not_ge))
  · exact absurd (low.trans high) less.not_ge

theorem step_mul_le {k : Nat} (inside : k + 1 < d.length) :
    ((d.above (d.length - (k + 1))).value - (d.below (d.length - (k + 1))).value) * 10 ^ k ≤
      d.value := by
  refine le_of_eq_of_le ?_ (le_value (coefficient_ne_zero (by omega : 1 < d.length)))
  rw [d.above_sub_below, ← zpow_natCast, ← zpow_natCast, ← zpow_add₀ (by norm_num),
    ← zpow_add₀ (by norm_num)]
  congr 1
  omega

end Neighbours

section Choice

variable {m : Nat}

structure Chooses (f : FloatFormat) (m : Nat) (d s : Decimal) (dropped : Nat) : Prop where
  reads : s.nearest f = m
  neighbour : s = d.below dropped ∨ s = d.above dropped
  closer : ∀ t, t = d.below dropped ∨ t = d.above dropped → t.nearest f = m →
    |s.value - d.value| ≤ |t.value - d.value|

theorem readingBack?_eq (f : FloatFormat) (m : Nat) (d : Decimal) (dropped : Nat) :
    readingBack? f m d dropped =
      if (d.below dropped).nearest f = m ∧ ((d.above dropped).nearest f = m →
        |(d.below dropped).value - d.value| < |(d.above dropped).value - d.value|)
      then some (d.below dropped)
      else if (d.above dropped).nearest f = m then some (d.above dropped) else none := by
  simp only [← nearer_iff]
  rfl

theorem chooses_of_readingBack? {d s : Decimal} {dropped : Nat}
    (chosen : readingBack? f m d dropped = some s) : Chooses f m d s dropped := by
  rw [readingBack?_eq] at chosen
  split_ifs at chosen with low high
  · cases chosen
    refine ⟨low.1, .inl rfl, ?_⟩
    rintro t (rfl | rfl) reads
    · exact le_rfl
    · exact (low.2 reads).le
  · cases chosen
    refine ⟨high, .inr rfl, ?_⟩
    rintro t (rfl | rfl) reads
    · exact not_lt.mp fun nearer => low ⟨reads, fun _ => nearer⟩
    · exact le_rfl

theorem readingBack?_ne_none {d t : Decimal} {dropped : Nat}
    (neighbour : t = d.below dropped ∨ t = d.above dropped) (reads : t.nearest f = m) :
    readingBack? f m d dropped ≠ none := by
  rw [readingBack?_eq]
  rcases neighbour with rfl | rfl
  · by_cases high : (d.above dropped).nearest f = m
    · rw [if_pos high]
      split <;> exact nofun
    · rw [if_pos ⟨reads, fun reads => absurd reads high⟩]
      exact nofun
  · rw [if_pos reads]
    split <;> exact nofun

/-- Where a decimal of few digits is read as the magnitude, so is a neighbour that is as close. -/
theorem exists_neighbour {d t : Decimal} {k : Nat} (exact : d.nearest f = m)
    (short : t.length ≤ k) (reads : t.nearest f = m) :
    ∃ s, (s = d.below (d.length - k) ∨ s = d.above (d.length - k)) ∧ s.nearest f = m ∧
      |s.value - d.value| ≤ |t.value - d.value| := by
  rcases Nat.lt_or_ge k d.length with fewer | whole
  · rcases le_or_gt t.value d.value with le | less
    · have between := le_below short fewer le
      have low := d.below_le (d.length - k)
      refine ⟨_, .inl rfl, nearest_of_between reads exact between low, ?_⟩
      rw [abs_of_nonpos (sub_nonpos.mpr low), abs_of_nonpos (sub_nonpos.mpr le)]
      linarith
    · have between := above_le short fewer less
      have high := (d.lt_above (d.length - k)).le
      refine ⟨_, .inr rfl, nearest_of_between exact reads high between, ?_⟩
      rw [abs_of_nonneg (sub_nonneg.mpr high), abs_of_nonneg (sub_nonneg.mpr less.le)]
      linarith
  · refine ⟨d, .inl ?_, exact, ?_⟩
    · rw [Nat.sub_eq_zero_of_le whole, below_zero]
    · rw [sub_self, abs_zero]
      exact abs_nonneg _

theorem nearest_of_above {t : Decimal} (room : m ≤ f.infinite)
    (above : (f.units m : ℚ) ≤ t.value * 2 ^ f.scale)
    (near : 2 * (t.value * 2 ^ f.scale) < f.units m + f.units (m + 1)) : t.nearest f = m :=
  t.nearest_isNearest.unique (FloatFormat.isNearest_of_above room above fun _ =>
    ⟨near.le, fun tie => absurd tie near.ne⟩)

theorem nearest_of_below {t : Decimal} (room : m + 1 ≤ f.infinite)
    (below : t.value * 2 ^ f.scale ≤ f.units (m + 1))
    (near : (f.units m + f.units (m + 1) : ℚ) < 2 * (t.value * 2 ^ f.scale)) :
    t.nearest f = m + 1 := by
  refine t.nearest_isNearest.unique (FloatFormat.isNearest_of_below room below fun n before => ?_)
  obtain rfl := Nat.succ.inj before
  exact ⟨near.le, fun tie => absurd tie near.ne'⟩

/-- Twice the step of seventeen digits is less than the distance from the number before to the
number after. -/
theorem double_step_lt {d : Decimal} (long : 17 < d.length)
    (size : d.value * 2 ^ f.scale = f.units (m + 1)) :
    2 * (((d.above (d.length - 17)).value - (d.below (d.length - 17)).value) * 2 ^ f.scale) <
      f.spacing m + f.spacing (m + 1) := by
  have step := mul_le_mul_of_nonneg_right (step_mul_le long)
    (by positivity : (0 : ℚ) ≤ 2 ^ f.scale)
  rw [size] at step
  have digits : 2 * f.leading ≤ 10 ^ 16 := by cases f <;> decide
  have before : (f.units (m + 1) : ℚ) ≤ 10 ^ 16 * f.spacing m :=
    mod_cast (f.units_succ_le m).trans (Nat.mul_le_mul_right _ digits)
  have after : (f.units (m + 1) : ℚ) < 10 ^ 16 * f.spacing (m + 1) :=
    mod_cast (f.units_lt (m + 1)).trans_le (Nat.mul_le_mul_right _ digits)
  linarith

theorem exists_neighbour_seventeen {d : Decimal} (long : 17 < d.length) (finite : m < f.infinite)
    (size : d.value * 2 ^ f.scale = f.units m) :
    ∃ s, (s = d.below (d.length - 17) ∨ s = d.above (d.length - 17)) ∧ s.nearest f = m := by
  cases m with
  | zero =>
    have positive := (by positivity : (0 : ℚ) < 10 ^ (d.length + d.exponent - 1)).trans_le
      (le_value (coefficient_ne_zero (by omega : 1 < d.length)))
    rw [f.units_zero, Nat.cast_zero, mul_eq_zero, or_iff_left (by positivity)] at size
    exact absurd size positive.ne'
  | succ n =>
    have narrow := double_step_lt long size
    have low := mul_le_mul_of_nonneg_right (d.below_le (d.length - 17))
      (by positivity : (0 : ℚ) ≤ 2 ^ f.scale)
    have high := mul_le_mul_of_nonneg_right (d.lt_above (d.length - 17)).le
      (by positivity : (0 : ℚ) ≤ 2 ^ f.scale)
    rw [size] at low high
    have down : (f.units (n + 1) : ℚ) = f.units n + f.spacing n := mod_cast f.units_succ n
    have up : (f.units (n + 2) : ℚ) = f.units (n + 1) + f.spacing (n + 1) :=
      mod_cast f.units_succ (n + 1)
    rcases lt_or_ge (f.units n + f.units (n + 1) : ℚ)
      (2 * ((d.below (d.length - 17)).value * 2 ^ f.scale)) with near | far
    · exact ⟨_, .inl rfl, nearest_of_below finite.le low near⟩
    · exact ⟨_, .inr rfl, nearest_of_above finite.le high (by linarith)⟩

end Choice

/-- A decimal is read as the magnitude, none with fewer digits is, and none with as few is closer
to the size of the magnitude. -/
structure IsShortest (f : FloatFormat) (m : Nat) (d : Decimal) : Prop where
  reads : d.nearest f = m
  fewest : ∀ t : Decimal, t.nearest f = m → d.length ≤ t.length
  closest : ∀ t : Decimal, t.nearest f = m → t.length ≤ d.length →
    |d.value - f.worth m| ≤ |t.value - f.worth m|

theorem isShortest_strip {m k : Nat} {d s : Decimal} (exact : d.nearest f = m)
    (size : d.value = f.worth m) (positive : 0 < k)
    (chosen : Chooses f m d s (d.length - k))
    (first : ∀ j, 0 < j → j < k → readingBack? f m d (d.length - j) = none) :
    IsShortest f m (strip s.coefficient s.exponent) := by
  have same : (strip s.coefficient s.exponent).value = s.value := value_strip _ _
  have few : s.coefficient ≤ 10 ^ k := by
    have quotient : d.coefficient / 10 ^ (d.length - k) < 10 ^ k := by
      rw [Nat.div_lt_iff_lt_mul (by positivity), ← Nat.pow_add]
      exact d.coefficient_lt.trans_le (Nat.pow_le_pow_right (by decide) (by omega))
    rcases chosen.neighbour with rfl | rfl
    · exact quotient.le
    · exact quotient
  have length := length_strip_le s.exponent positive few
  refine ⟨(nearest_congr same).trans chosen.reads, fun t reads => ?_, fun t reads short => ?_⟩
  · by_contra longer
    have fewer : t.length < k := by omega
    obtain ⟨s', neighbour, reads', -⟩ := exists_neighbour exact le_rfl reads
    exact readingBack?_ne_none neighbour reads' (first _ t.length_pos fewer)
  · obtain ⟨s', neighbour, reads', close⟩ := exists_neighbour exact (short.trans length) reads
    rw [same, ← size]
    exact (chosen.closer s' neighbour reads').trans close

theorem findSome?_range {α : Type} {g : Nat → Option α} {n i : Nat} (inside : i < n)
    (found : g i ≠ none) : ∃ k v, (List.range n).findSome? g = some v ∧ g k = some v ∧
      ∀ j < k, g j = none := by
  obtain ⟨v, result⟩ := Option.ne_none_iff_exists'.mp fun none =>
    found (List.findSome?_eq_none_iff.mp none i (List.mem_range.mpr inside))
  obtain ⟨before, k, after, split, here, nothing⟩ := List.findSome?_eq_some_iff.mp result
  refine ⟨k, v, result, here, fun j less => nothing j ?_⟩
  have bound : k < n := List.mem_range.mp (split ▸ List.mem_append_right _ List.mem_cons_self)
  have member : j ∈ before ++ k :: after := split ▸ List.mem_range.mpr (less.trans bound)
  have ascending : (before ++ k :: after).Pairwise (· < ·) := split ▸ List.pairwise_lt_range
  rcases List.mem_append.mp member with early | late
  · exact early
  · have := List.pairwise_cons.mp (List.pairwise_append.mp ascending).2.1
    rcases List.mem_cons.mp late with rfl | later
    · exact absurd less (lt_irrefl _)
    · exact absurd (this.1 j later) less.asymm

theorem isShortest_shortest {m : Nat} (finite : m < f.infinite) :
    IsShortest f m (shortest f m) := by
  have exactly := nearest_exact finite.le
  have size := value_exact f m
  unfold shortest
  generalize exact f m = d at exactly size ⊢
  -- Seventeen digits are enough where the exact decimal is longer, and its own length where not.
  have enough : ∃ i < 17, readingBack? f m d (d.length - (i + 1)) ≠ none := by
    rcases Nat.lt_or_ge 17 d.length with long | short
    · have units : d.value * 2 ^ f.scale = f.units m := by
        rw [size, FloatFormat.worth, div_mul_cancel₀ _ (by positivity)]
      obtain ⟨s, neighbour, reads⟩ := exists_neighbour_seventeen long finite units
      exact ⟨16, by decide, readingBack?_ne_none neighbour reads⟩
    · have := d.length_pos
      obtain ⟨s, neighbour, reads, -⟩ := exists_neighbour exactly le_rfl exactly
      refine ⟨d.length - 1, by omega, readingBack?_ne_none ?_ reads⟩
      rwa [Nat.sub_add_cancel this]
  obtain ⟨i, inside, found⟩ := enough
  obtain ⟨k, s, result, here, nothing⟩ := findSome?_range
    (g := fun digits => readingBack? f m d (d.length - (digits + 1))) inside found
  simp only [result, Option.getD_some]
  refine isShortest_strip exactly size k.succ_pos (chooses_of_readingBack? here) ?_
  intro j positive less
  rw [← Nat.sub_add_cancel positive]
  exact nothing (j - 1) (by omega)

end Decimal

end Nominal
