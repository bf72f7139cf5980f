/-! Binary floating-point numbers in the two interchange formats of 32 and 64 bits. A
number is a sign and a magnitude, which are the bits below the sign read as a natural
number, so magnitudes are ordered as the numbers they stand for. Infinity is the
greatest magnitude. All patterns above it are one value, which is not a number.

A finite magnitude counts units, the least positive number of the format, and every
finite number is a whole multiple of that unit. -/

namespace Nominal

inductive FloatFormat where
  | single
  | double
  deriving DecidableEq

namespace FloatFormat

def exponentBits : FloatFormat → Nat
  | .single => 8
  | .double => 11

def fractionBits : FloatFormat → Nat
  | .single => 23
  | .double => 52

variable (f : FloatFormat)

def bytes : Nat := (f.exponentBits + f.fractionBits + 1) / 8

def bias : Nat := Nat.pow 2 (f.exponentBits - 1) - 1

def leading : Nat := Nat.pow 2 f.fractionBits

def infinite : Nat := (Nat.pow 2 f.exponentBits - 1) * f.leading

def signBit : Nat := Nat.pow 2 f.exponentBits * f.leading

/-- One is this power of two times the unit. -/
def scale : Nat := f.bias + f.fractionBits - 1

def units (magnitude : Nat) : Nat :=
  if magnitude < f.leading then magnitude
  else (f.leading + magnitude % f.leading) * Nat.pow 2 (magnitude / f.leading - 1)

theorem infinite_lt_signBit : f.infinite < f.signBit := by
  cases f <;> decide

end FloatFormat

inductive Binary (f : FloatFormat) where
  | nan
  | number (negative : Bool) (magnitude : Nat) (bounded : magnitude ≤ f.infinite)
  deriving DecidableEq

namespace Binary

variable {f : FloatFormat}

def zero (negative : Bool) : Binary f := .number negative 0 (Nat.zero_le _)

def infinity (negative : Bool) : Binary f := .number negative f.infinite (Nat.le_refl _)

def extreme (negative : Bool) : Binary f := .number negative (f.infinite - 1) (Nat.sub_le _ _)

def one : Binary f :=
  .number false (f.bias * f.leading) (by cases f <;> decide)

def ofBits (f : FloatFormat) (bits : Nat) : Binary f :=
  let magnitude := bits % f.signBit
  if bounded : magnitude ≤ f.infinite then
    .number (bits / f.signBit % 2 = 1) magnitude bounded
  else .nan

/-- The pattern of a number; for what is not a number there are many patterns and
none is chosen. -/
def bits? : Binary f → Option Nat
  | .nan => none
  | .number negative magnitude _ => some (if negative then f.signBit + magnitude else magnitude)

theorem ofBits_of_bits? {x : Binary f} {bits : Nat} (pattern : x.bits? = some bits) :
    ofBits f bits = x := by
  cases x with
  | nan => simp [bits?] at pattern
  | number negative magnitude bounded =>
    have below := Nat.lt_of_le_of_lt bounded f.infinite_lt_signBit
    have positive : 0 < f.signBit := Nat.lt_of_le_of_lt (Nat.zero_le _) below
    cases negative
    · simp only [bits?, Bool.false_eq_true, ↓reduceIte, Option.some.injEq] at pattern
      subst pattern
      simp [ofBits, Nat.mod_eq_of_lt below, Nat.div_eq_of_lt below, bounded]
    · simp only [bits?, ↓reduceIte, Option.some.injEq] at pattern
      subst pattern
      have quotient : (f.signBit + magnitude) / f.signBit = 1 := by
        rw [Nat.add_div_left _ positive, Nat.div_eq_of_lt below]
      simp [ofBits, Nat.mod_eq_of_lt below, quotient, bounded]

end Binary

end Nominal
