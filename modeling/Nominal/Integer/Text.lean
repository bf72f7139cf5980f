import Nominal.Integer.Format
import Nominal.Rejection

/-! Written integers. An integer is written in decimal digits after a minus sign when
it is negative; for inspection it can also be written as the pattern of its bits in
hexadecimal.

Reading goes from left to right and stops at the first flaw: a character that is no
digit, or a digit that takes the value read so far out of range. A sign may precede
the digits, a minus only where the format has negative numbers. -/

namespace Nominal.FixedInt

variable {f : IntFormat}

def digits (n : Nat) : Text := Nat.toDigits 10 n

/-- A number as readers see it. The precision and the alternate layout do not
concern it. -/
def display (s : Spec) (a : FixedInt f) : Text :=
  s.padNumber (s.sign (a.toInt < 0)) (digits a.toInt.natAbs)

def displayHex (s : Spec) (a : FixedInt f) : Text :=
  let mark := if s.alternate then ['0', 'x'] else []
  let written := Nat.toDigits 16 a.pattern
  s.padNumber (s.sign false ++ mark)
    (if s.radix = .upperHex then Text.upper written else written)

def debug (s : Spec) (a : FixedInt f) : Text :=
  match s.radix with
  | .decimal => a.display s
  | .lowerHex | .upperHex => a.displayHex s

def digit? (c : Char) : Option Nat := if c.isDigit then some (c.toNat - '0'.toNat) else none

/-- The value read so far with one more digit, taken away from below zero after a
minus sign. -/
def extend (negative : Bool) (value : Int) (d : Nat) : Int :=
  if negative then 10 * value - d else 10 * value + d

def readDigits (negative : Bool) (value : FixedInt f) : Text → Except IntegerFlaw (FixedInt f)
  | [] => .ok value
  | c :: rest => match digit? c with
    | none => .error .invalidDigit
    | some d => match ofInt? f (extend negative value.toInt d) with
      | none => .error (if negative then .tooSmall else .tooLarge)
      | some value => readDigits negative value rest

def readMagnitude (f : IntFormat) (negative : Bool) : Text → Except IntegerFlaw (FixedInt f)
  | [] => .error .invalidDigit
  | t => readDigits negative (zero f) t

def read (f : IntFormat) : Text → Except IntegerFlaw (FixedInt f)
  | [] => .error .empty
  | c :: rest =>
    if c = '+' then readMagnitude f false rest
    else if c = '-' ∧ f.signed then readMagnitude f true rest
    else readMagnitude f false (c :: rest)

end Nominal.FixedInt
