import Nominal.Binary.Decimal
import Nominal.Rejection

/-! Written floating-point numbers. Without a precision a number is written by its
shortest decimal, with one by its exact value rounded to that many places. Readers
always see positional notation. For inspection a whole number keeps one decimal
place, and a number from ten to the sixteenth on, or below a ten-thousandth, is
written by its first digit and a power of ten.

Reading accepts the three names of special values in any case, or decimal digits with
an optional point and an optional exponent, and rounds once. -/

namespace Nominal.Binary

variable {f : FloatFormat}

def positional (d : Decimal) : Text :=
  let digits := Nat.toDigits 10 d.coefficient
  if 0 ≤ d.exponent then digits ++ List.replicate d.exponent.toNat '0'
  else
    let places := (-d.exponent).toNat
    if places < digits.length then
      digits.take (digits.length - places) ++ '.' :: digits.drop (digits.length - places)
    else ['0', '.'] ++ List.replicate (places - digits.length) '0' ++ digits

def scientific (d : Decimal) : Text :=
  let digits := Nat.toDigits 10 d.coefficient
  let power := d.exponent + (digits.length - 1 : Nat)
  let fraction := if digits.length ≤ 1 then [] else '.' :: digits.drop 1
  digits.take 1 ++ fraction ++ 'e' ::
    ((if power < 0 then ['-'] else []) ++ Nat.toDigits 10 power.natAbs)

def fixed (count places : Nat) : Text :=
  let digits := Nat.toDigits 10 count
  let digits := List.replicate (places + 1 - digits.length) '0' ++ digits
  if places = 0 then digits
  else
    digits.take (digits.length - places) ++ '.' :: digits.drop (digits.length - places)

/-- A finite magnitude rounded to decimal places. Beyond as many places as the format
has binary ones every digit is a zero, and is written without being computed. -/
def placesText (f : FloatFormat) (magnitude places : Nat) : Text :=
  let computed := min places (f.scale + 1)
  fixed (Decimal.rounded f magnitude computed) computed ++
    List.replicate (places - computed) '0'

def withPlace (t : Text) : Text := if '.' ∈ t then t else t ++ ['.', '0']

def isExtreme (f : FloatFormat) (magnitude : Nat) : Bool :=
  magnitude ≠ 0 &&
    (Decimal.nearest f ⟨1, 16⟩ ≤ magnitude || magnitude < Decimal.nearest f ⟨1, -4⟩)

def magnitudeText (f : FloatFormat) (style : Style) (s : Spec) (magnitude : Nat) : Text :=
  if magnitude = f.infinite then ['i', 'n', 'f']
  else match s.precision? with
    | some places => placesText f magnitude places
    | none =>
      let shortest := Decimal.shortest f magnitude
      match style with
      | .display => positional shortest
      | .debug =>
        if isExtreme f magnitude then scientific shortest else withPlace (positional shortest)

/-- A number in the given style. What is not a number has no sign. -/
def format (style : Style) (s : Spec) : Binary f → Text
  | .nan => s.padNumber [] ['N', 'a', 'N']
  | .number negative magnitude _ =>
    s.padNumber (s.sign negative) (magnitudeText f style s magnitude)

def display (s : Spec) (x : Binary f) : Text := x.format .display s

def debug (s : Spec) (x : Binary f) : Text := x.format .debug s

def takeDigits (t : Text) : Text × Text := (t.takeWhile Char.isDigit, t.dropWhile Char.isDigit)

def takeFraction : Text → Text × Text
  | '.' :: rest => takeDigits rest
  | t => ([], t)

def takeSign : Text → Bool × Text
  | '-' :: rest => (true, rest)
  | '+' :: rest => (false, rest)
  | t => (false, t)

/-- The exponent that ends a number: nothing, or a letter, an optional sign and at
least one digit. -/
def readExponent? : Text → Option Int
  | [] => some 0
  | c :: rest =>
    if c = 'e' ∨ c = 'E' then
      let (negative, digits) := takeSign rest
      if digits.isEmpty ∨ ¬ digits.all Char.isDigit then none
      else
        let n := Nat.ofDigitChars 10 digits 0
        some (if negative then -(n : Int) else n)
    else none

def readDecimal? (t : Text) : Option Decimal := do
  let (whole, t) := takeDigits t
  let (fraction, t) := takeFraction t
  if whole.isEmpty ∧ fraction.isEmpty then none
  else
    let exponent ← readExponent? t
    some ⟨Nat.ofDigitChars 10 (whole ++ fraction) 0, exponent - fraction.length⟩

def readMagnitude (f : FloatFormat) (negative : Bool) (t : Text) : Except FloatFlaw (Binary f) :=
  let name := t.map Char.toLower
  if name = "nan".toList then .ok .nan
  else if name = "inf".toList ∨ name = "infinity".toList then .ok (infinity negative)
  else match readDecimal? t with
    | some d => .ok (.number negative (d.nearest f) (d.nearest_le_infinite f))
    | none => .error .invalid

def read (f : FloatFormat) : Text → Except FloatFlaw (Binary f)
  | [] => .error .empty
  | t =>
    let (negative, rest) := takeSign t
    readMagnitude f negative rest

end Nominal.Binary
