import Nominal.Fault
import Nominal.Integer.Format

/-! Four arithmetics on one fixed-width format. The plain one stops with a fault when
the exact result is out of range, the checked one answers nothing instead, the
saturating one takes the nearest number of the range and the wrapping one the
congruent number. They are defined apart from one another, each from the exact
result over the integers. -/

namespace Nominal

/-- Whether the plain operator answers: the exact result is in range, and for a
remainder the quotient that goes with it is in range as well. -/
def Operator.Fits (op : Operator) (f : IntFormat) (a b : Int) : Prop :=
  f.InRange (op.exact a b) ∧ (op = .rem → f.InRange (a.tdiv b))

instance (op : Operator) (f : IntFormat) (a b : Int) : Decidable (op.Fits f a b) :=
  inferInstanceAs (Decidable (_ ∧ (_ → _)))

namespace FixedInt

variable {f : IntFormat}

def apply (op : Operator) (a b : FixedInt f) : Except Fault (FixedInt f) :=
  match op.refusal? b.toInt with
  | some fault => .error fault
  | none =>
    if fits : op.Fits f a.toInt b.toInt then
      .ok ⟨op.exact a.toInt b.toInt, fits.1.1, fits.1.2⟩
    else .error (.overflow op)

def neg (a : FixedInt f) : Except Fault (FixedInt f) :=
  if fits : f.InRange (-a.toInt) then .ok ⟨-a.toInt, fits.1, fits.2⟩
  else .error .negationOverflow

def abs (a : FixedInt f) : Except Fault (FixedInt f) :=
  if a.toInt < 0 then a.neg else .ok a

def sum (xs : List (FixedInt f)) : Except Fault (FixedInt f) :=
  xs.foldlM (fun total x => total.apply .add x) (zero f)

def product (xs : List (FixedInt f)) : Except Fault (FixedInt f) :=
  xs.foldlM (fun total x => total.apply .mul x) (one f)

/-- A divisor of zero has no result, and neither has the least number over minus one. -/
def checked (op : Operator) (a b : FixedInt f) : Option (FixedInt f) :=
  if op.Divides ∧ b.toInt = 0 then none
  else if op.Divides ∧ a.toInt = f.min ∧ b.toInt = -1 then none
  else ofInt? f (op.exact a.toInt b.toInt)

def saturating (op : Operator) (a b : FixedInt f) : FixedInt f :=
  clamp f (op.exact a.toInt b.toInt)

/-- The operators of a type whose arithmetic saturates. Only division can still stop. -/
def saturatingApply (op : Operator) (a b : FixedInt f) : Except Fault (FixedInt f) :=
  match op.refusal? b.toInt with
  | some fault => .error fault
  | none =>
    if op = .rem ∧ ¬ op.Fits f a.toInt b.toInt then .error (.overflow .rem)
    else .ok (a.saturating op b)

def saturatingNeg (a : FixedInt f) : FixedInt f := clamp f (-a.toInt)

/-- The operators of a type whose arithmetic wraps. Only a zero divisor can stop it. -/
def wrappingApply (op : Operator) (a b : FixedInt f) : Except Fault (FixedInt f) :=
  match op.refusal? b.toInt with
  | some fault => .error fault
  | none => .ok (reduce f (op.exact a.toInt b.toInt))

def wrappingNeg (a : FixedInt f) : FixedInt f := reduce f (-a.toInt)

def wrappingSum (xs : List (FixedInt f)) : Except Fault (FixedInt f) :=
  xs.foldlM (fun total x => total.wrappingApply .add x) (zero f)

def wrappingProduct (xs : List (FixedInt f)) : Except Fault (FixedInt f) :=
  xs.foldlM (fun total x => total.wrappingApply .mul x) (one f)

def compare (a b : FixedInt f) : Ordering := Ord.compare a.toInt b.toInt

end FixedInt

end Nominal
