/-! The five binary operators on numbers, their exact meaning over the integers, and
the faults that a computation can stop with. An operator refuses a zero divisor
before anything else is looked at; its other fault is a result outside the range of
its type. Besides, an interval can be given with its ends crossed, and a format
specification with a number that is too large. -/

namespace Nominal

inductive Operator where
  | add
  | sub
  | mul
  | div
  | rem
  deriving DecidableEq

inductive Fault where
  | overflow (op : Operator)
  | negationOverflow
  | divisionByZero
  | remainderByZero
  | crossedBounds
  | specOutOfRange
  deriving DecidableEq

namespace Operator

def all : List Operator := [.add, .sub, .mul, .div, .rem]

/-- The exact result over the integers: a quotient is truncated toward zero, and a
remainder has the sign of the dividend. -/
def exact : Operator → Int → Int → Int
  | .add, a, b => a + b
  | .sub, a, b => a - b
  | .mul, a, b => a * b
  | .div, a, b => a.tdiv b
  | .rem, a, b => a.tmod b

def Divides (op : Operator) : Prop := op = .div ∨ op = .rem

instance (op : Operator) : Decidable op.Divides :=
  inferInstanceAs (Decidable (op = .div ∨ op = .rem))

def refusal? : Operator → Int → Option Fault
  | .div, b => if b = 0 then some .divisionByZero else none
  | .rem, b => if b = 0 then some .remainderByZero else none
  | _, _ => none

theorem refusal?_eq_none_iff (op : Operator) (b : Int) :
    op.refusal? b = none ↔ (op.Divides → b ≠ 0) := by
  cases op <;> simp [refusal?, Divides]

end Operator

namespace Fault

def message : Fault → String
  | .overflow .add => "attempt to add with overflow"
  | .overflow .sub => "attempt to subtract with overflow"
  | .overflow .mul => "attempt to multiply with overflow"
  | .overflow .div => "attempt to divide with overflow"
  | .overflow .rem => "attempt to calculate the remainder with overflow"
  | .negationOverflow => "attempt to negate with overflow"
  | .divisionByZero => "attempt to divide by zero"
  | .remainderByZero => "attempt to calculate the remainder with a divisor of zero"
  | .crossedBounds => "assertion failed: min <= max"
  | .specOutOfRange => "Formatting argument out of range"

end Fault

end Nominal
