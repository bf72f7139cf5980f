import Nominal.Binary.Rounding

/-! Decimal numbers beside binary ones. A decimal is a whole number of powers of ten,
and its binary neighbour is found by one exact rounding. In the other direction every
finite binary number is itself a decimal, since two divides ten; its shortest decimal
is the one with the fewest digits among those that round back to it.

For each number of digits, from one up, only the two decimals around the number are
tested. If both read back the nearer one is taken, and the upper one if the number
stands half-way between them. Where none of up to seventeen digits reads back the
exact decimal is taken, so what is chosen reads back in every case. -/

namespace Nominal

structure Decimal where
  coefficient : Nat
  exponent : Int
  deriving DecidableEq

namespace Decimal

def length (d : Decimal) : Nat := (Nat.toDigits 10 d.coefficient).length

/-- The magnitude nearest to a decimal. A decimal of a size that is out of the
question for the format is settled by its size alone, before any power is computed. -/
def nearest (f : FloatFormat) (d : Decimal) : Nat :=
  if d.coefficient = 0 then 0
  else if f.bias + 1 < d.length + d.exponent then f.infinite
  else if d.length + d.exponent < -(f.scale : Int) then 0
  else if 0 ≤ d.exponent then
    f.nearest (d.coefficient * Nat.pow 10 d.exponent.toNat * Nat.pow 2 f.scale) 1
  else f.nearest (d.coefficient * Nat.pow 2 f.scale) (Nat.pow 10 (-d.exponent).toNat)

theorem nearest_le_infinite (f : FloatFormat) (d : Decimal) : d.nearest f ≤ f.infinite := by
  unfold nearest
  repeat' split
  · exact Nat.zero_le _
  · exact Nat.le_refl _
  · exact Nat.zero_le _
  · exact f.nearest_le_infinite _ _
  · exact f.nearest_le_infinite _ _

/-- Moves the zeros that end a coefficient into the exponent. Zero has no digits to
move and gets the exponent zero. -/
def strip (coefficient : Nat) (exponent : Int) : Decimal :=
  if zero : coefficient = 0 then ⟨0, 0⟩
  else if coefficient % 10 = 0 then strip (coefficient / 10) (exponent + 1)
  else ⟨coefficient, exponent⟩
termination_by coefficient
decreasing_by omega

def exact (f : FloatFormat) (magnitude : Nat) : Decimal :=
  ⟨f.units magnitude * Nat.pow 5 f.scale, -(f.scale : Int)⟩

/-- Of the two neighbours of an exact decimal with `dropped` digits less, the one
that reads back as the magnitude, if there is one. -/
def readingBack? (f : FloatFormat) (magnitude : Nat) (exact : Decimal) (dropped : Nat) :
    Option Decimal :=
  let step := Nat.pow 10 dropped
  let below : Decimal := ⟨exact.coefficient / step, exact.exponent + dropped⟩
  let above : Decimal := ⟨exact.coefficient / step + 1, exact.exponent + dropped⟩
  let nearer := 2 * (exact.coefficient % step) < step
  if below.nearest f = magnitude ∧ (above.nearest f = magnitude → nearer) then some below
  else if above.nearest f = magnitude then some above
  else none

/-- The decimal with the fewest digits that reads back as the magnitude. -/
def shortest (f : FloatFormat) (magnitude : Nat) : Decimal :=
  let exact := exact f magnitude
  let length := exact.length
  let chosen := (List.range 17).findSome? fun digits =>
    readingBack? f magnitude exact (length - (digits + 1))
  let chosen := chosen.getD exact
  strip chosen.coefficient chosen.exponent

/-- A finite magnitude in whole units of the given decimal place. An exact half goes
to the even neighbour. -/
def rounded (f : FloatFormat) (magnitude places : Nat) : Nat :=
  roundQuotient (f.units magnitude * Nat.pow 10 places) (Nat.pow 2 f.scale)

end Decimal

end Nominal
