import Nominal.Binary.Format

/-! Rounding to the nearest number of a binary format. An exact result is a quotient
of natural numbers that counts units. It is rounded once, to the nearest multiple of
the spacing at its size, and an exact half goes to the even neighbour. A result that
rounds past the greatest finite number is infinite. -/

namespace Nominal

/-- The natural number nearest to a quotient; an exact half goes to the even one. -/
def roundQuotient (num den : Nat) : Nat :=
  let below := num / den
  let excess := num % den
  if 2 * excess < den then below
  else if den < 2 * excess then below + 1
  else below + below % 2

namespace FloatFormat

/-- The magnitude nearest to a number of units. The spacing of the numbers whose
leading bit is the one of the quotient is a power of two, and the magnitudes with
that spacing follow one another, so the rounded multiple is added to their start. -/
def nearest (f : FloatFormat) (num den : Nat) : Nat :=
  let shift := (num / den).log2 - f.fractionBits
  min f.infinite (shift * f.leading + roundQuotient num (den * Nat.pow 2 shift))

theorem nearest_le_infinite (f : FloatFormat) (num den : Nat) : f.nearest num den ≤ f.infinite :=
  Nat.min_le_left _ _

end FloatFormat

namespace Binary

variable {f : FloatFormat}

def round (negative : Bool) (num den : Nat) : Binary f :=
  .number negative (f.nearest num den) (f.nearest_le_infinite num den)

end Binary

end Nominal
