import Nominal.Bytes

/-! Fixed-width integer formats. A format says how many bytes a number has and
whether it has a sign; the machine word is as wide as eight bytes and still a format
of its own. A number of a format is an integer with the proof that it is in range,
so no operation can leave the range unnoticed. -/

namespace Nominal

inductive Width where
  | bits8
  | bits16
  | bits32
  | bits64
  | bits128
  | word
  deriving DecidableEq

def Width.bytes : Width → Nat
  | .bits8 => 1
  | .bits16 => 2
  | .bits32 => 4
  | .bits64 => 8
  | .bits128 => 16
  | .word => 8

structure IntFormat where
  signed : Bool
  width : Width
  deriving DecidableEq

namespace IntFormat

def int8 : IntFormat := ⟨true, .bits8⟩
def int16 : IntFormat := ⟨true, .bits16⟩
def int32 : IntFormat := ⟨true, .bits32⟩
def int64 : IntFormat := ⟨true, .bits64⟩
def int128 : IntFormat := ⟨true, .bits128⟩
def intWord : IntFormat := ⟨true, .word⟩
def nat8 : IntFormat := ⟨false, .bits8⟩
def nat16 : IntFormat := ⟨false, .bits16⟩
def nat32 : IntFormat := ⟨false, .bits32⟩
def nat64 : IntFormat := ⟨false, .bits64⟩
def nat128 : IntFormat := ⟨false, .bits128⟩
def natWord : IntFormat := ⟨false, .word⟩

variable (f : IntFormat)

def bytes : Nat := f.width.bytes

def bits : Nat := 8 * f.bytes

def modulus : Nat := Nat.pow 2 f.bits

/-- The least number above the range of the signed formats. -/
def half : Nat := Nat.pow 2 (f.bits - 1)

def min : Int := if f.signed then -f.half else 0

def max : Int := if f.signed then f.half - 1 else f.modulus - 1

def InRange (n : Int) : Prop := f.min ≤ n ∧ n ≤ f.max

instance (n : Int) : Decidable (f.InRange n) :=
  inferInstanceAs (Decidable (f.min ≤ n ∧ n ≤ f.max))

theorem bits_pos : 8 ≤ f.bits := by
  rcases f with ⟨s, w⟩
  cases w <;> simp [bits, bytes, Width.bytes]

theorem modulus_eq_two_mul_half : f.modulus = 2 * f.half := by
  have wide := f.bits_pos
  have succ : f.bits = (f.bits - 1) + 1 := by omega
  unfold modulus half
  rw [succ, Nat.add_sub_cancel]
  exact Nat.pow_succ'

theorem half_ge : 128 ≤ f.half :=
  Nat.le_trans (by decide) (Nat.pow_le_pow_right (by decide) (show 7 ≤ f.bits - 1 by
    have := f.bits_pos
    omega))

theorem max_sub_min : f.max - f.min + 1 = f.modulus := by
  have := f.modulus_eq_two_mul_half
  unfold max min
  split <;> omega

theorem inRange_of_small {n : Int} (nonneg : 0 ≤ n) (small : n ≤ 127) : f.InRange n := by
  have := f.half_ge
  have := f.modulus_eq_two_mul_half
  unfold InRange min max
  split <;> omega

theorem min_nonpos : f.min ≤ 0 := by
  unfold min
  split <;> omega

theorem max_ge : 127 ≤ f.max := by
  have := f.half_ge
  have := f.modulus_eq_two_mul_half
  unfold max
  split <;> omega

end IntFormat

structure FixedInt (f : IntFormat) where
  toInt : Int
  min_le : f.min ≤ toInt
  le_max : toInt ≤ f.max
  deriving DecidableEq

namespace FixedInt

variable {f : IntFormat}

@[ext] theorem ext {a b : FixedInt f} (same : a.toInt = b.toInt) : a = b := by
  cases a
  cases b
  simp_all

theorem inRange (a : FixedInt f) : f.InRange a.toInt := ⟨a.min_le, a.le_max⟩

def ofInt? (f : IntFormat) (n : Int) : Option (FixedInt f) :=
  if fits : f.InRange n then some ⟨n, fits.1, fits.2⟩ else none

def clamp (f : IntFormat) (n : Int) : FixedInt f where
  toInt := if n < f.min then f.min else if f.max < n then f.max else n
  min_le := by
    have := f.min_nonpos
    have := f.max_ge
    split
    · omega
    · split <;> omega
  le_max := by
    have := f.min_nonpos
    have := f.max_ge
    split
    · omega
    · split <;> omega

/-- The number of the range that is congruent modulo the number of values. -/
def reduce (f : IntFormat) (n : Int) : FixedInt f where
  toInt := f.min + (n - f.min) % f.modulus
  min_le := by
    have := Int.emod_nonneg (n - f.min) (show (f.modulus : Int) ≠ 0 by
      have := f.half_ge
      have := f.modulus_eq_two_mul_half
      omega)
    omega
  le_max := by
    have span := f.max_sub_min
    have := Int.emod_lt_of_pos (n - f.min) (show (0 : Int) < f.modulus by
      have := f.half_ge
      have := f.modulus_eq_two_mul_half
      omega)
    omega

def small (f : IntFormat) (n : Nat) (small : n ≤ 127) : FixedInt f :=
  have fits := f.inRange_of_small (Int.natCast_nonneg n) (Int.ofNat_le.mpr small)
  ⟨n, fits.1, fits.2⟩

def zero (f : IntFormat) : FixedInt f := small f 0 (by decide)

def one (f : IntFormat) : FixedInt f := small f 1 (by decide)

def least (f : IntFormat) : FixedInt f where
  toInt := f.min
  min_le := Int.le_refl _
  le_max := by
    have := f.min_nonpos
    have := f.max_ge
    omega

def greatest (f : IntFormat) : FixedInt f where
  toInt := f.max
  min_le := by
    have := f.min_nonpos
    have := f.max_ge
    omega
  le_max := Int.le_refl _

/-- The bits of a number, read as a natural number; a negative number has the
pattern of its two's complement. -/
def pattern (a : FixedInt f) : Nat := (a.toInt % f.modulus).toNat

def bytes (a : FixedInt f) : List UInt8 := littleEndian f.bytes a.pattern

@[simp] theorem toInt_zero : (zero f).toInt = 0 := rfl

@[simp] theorem toInt_one : (one f).toInt = 1 := rfl

@[simp] theorem toInt_least : (least f).toInt = f.min := rfl

@[simp] theorem toInt_greatest : (greatest f).toInt = f.max := rfl

theorem ofInt?_eq_some_iff {n : Int} {a : FixedInt f} : ofInt? f n = some a ↔ a.toInt = n := by
  unfold ofInt?
  split
  · constructor
    · intro h
      cases h
      rfl
    · intro h
      congr 1
      exact ext h.symm
  · rename_i outside
    simp only [reduceCtorEq, false_iff]
    intro h
    exact outside (h ▸ a.inRange)

theorem ofInt?_eq_none_iff {n : Int} : ofInt? f n = none ↔ ¬ f.InRange n := by
  unfold ofInt?
  split <;> simp_all

theorem clamp_of_inRange {n : Int} (fits : f.InRange n) : (clamp f n).toInt = n := by
  obtain ⟨low, high⟩ := fits
  simp only [clamp]
  split
  · omega
  · split <;> omega

theorem reduce_congruent (n : Int) : (f.modulus : Int) ∣ (reduce f n).toInt - n := by
  simp only [reduce]
  have := Int.emod_add_mul_ediv (n - f.min) f.modulus
  exact ⟨-((n - f.min) / f.modulus), by rw [Int.mul_neg]; omega⟩

end FixedInt

end Nominal
