import Nominal.Binary.Rounding
import Nominal.Fault

/-! Arithmetic and order on binary floating-point numbers. Each operator computes its
exact result in units and rounds once; a remainder needs no rounding, for the units
of the two operands have a remainder that is a number of the format. No operator
stops with a fault: what has no result is not a number. -/

namespace Nominal.Binary

variable {f : FloatFormat}

def signedUnits (f : FloatFormat) (negative : Bool) (magnitude : Nat) : Int :=
  if negative then -(f.units magnitude) else f.units magnitude

/-- Rounds an exact whole number of units. A zero takes the given sign. -/
def ofUnits (zeroSign : Bool) (n : Int) : Binary f :=
  if n = 0 then zero zeroSign else round (n < 0) n.natAbs 1

def neg : Binary f → Binary f
  | .nan => .nan
  | .number s m h => .number (!s) m h

def abs : Binary f → Binary f
  | .nan => .nan
  | .number _ m h => .number false m h

/-- Numbers that cancel leave a positive zero, and two zeros of one sign keep it. -/
def add : Binary f → Binary f → Binary f
  | .number s m _, .number t n _ =>
    if m = f.infinite then
      if n = f.infinite ∧ s ≠ t then .nan else infinity s
    else if n = f.infinite then infinity t
    else ofUnits (s && t) (signedUnits f s m + signedUnits f t n)
  | _, _ => .nan

def sub (x y : Binary f) : Binary f := x.add y.neg

def mul : Binary f → Binary f → Binary f
  | .number s m _, .number t n _ =>
    if m = f.infinite ∨ n = f.infinite then
      if m = 0 ∨ n = 0 then .nan else infinity (s ^^ t)
    else round (s ^^ t) (f.units m * f.units n) (Nat.pow 2 f.scale)
  | _, _ => .nan

def div : Binary f → Binary f → Binary f
  | .number s m _, .number t n _ =>
    if m = f.infinite then
      if n = f.infinite then .nan else infinity (s ^^ t)
    else if n = f.infinite then zero (s ^^ t)
    else if n = 0 then
      if m = 0 then .nan else infinity (s ^^ t)
    else round (s ^^ t) (f.units m * Nat.pow 2 f.scale) (f.units n)
  | _, _ => .nan

/-- What is left of the dividend after the whole multiples of the divisor, with the
sign of the dividend even when nothing is left. -/
def rem : Binary f → Binary f → Binary f
  | .number s m h, .number _ n _ =>
    if m = f.infinite ∨ n = 0 then .nan
    else if n = f.infinite then .number s m h
    else round s (f.units m % f.units n) 1
  | _, _ => .nan

def apply : Operator → Binary f → Binary f → Binary f
  | .add => add
  | .sub => sub
  | .mul => mul
  | .div => div
  | .rem => rem

/-- The total from left to right. It starts from the negative zero, which adds
nothing to any number, not even a sign. -/
def sum (xs : List (Binary f)) : Binary f := xs.foldl add (zero true)

def product (xs : List (Binary f)) : Binary f := xs.foldl mul one

/-- An integer that orders numbers as their values are ordered; both zeros share it. -/
def rank (negative : Bool) (magnitude : Nat) : Int :=
  if negative then -(magnitude : Int) else magnitude

def partialCompare : Binary f → Binary f → Option Ordering
  | .number s m _, .number t n _ => some (Ord.compare (rank s m) (rank t n))
  | _, _ => none

def equal (x y : Binary f) : Bool := x.partialCompare y == some .eq

end Nominal.Binary
