import Nominal.Fault
import Nominal.Text.Basic

/-! A format specification and the padding that it asks for. A specification is
written between braces after a colon: fill and alignment, `+`, `#`, `0`, a width, a
precision and the kind of text. Width and precision are numbers, or the names `w`
and `p` that stand for numbers given beside the specification.

Text is padded on the right unless an alignment says otherwise, and numbers on the
left. The `0` flag concerns numbers only: zeros go between the sign and the digits,
whatever the fill and the alignment are.

Width and precision have 16 bits. A specification with a larger number can be read,
but nothing is written to it: that stops with a fault, even where the text would
have no use for the number. -/

namespace Nominal

inductive Alignment where
  | left
  | centre
  | right
  deriving DecidableEq

inductive Style where
  | display
  | debug
  deriving DecidableEq

inductive Radix where
  | decimal
  | lowerHex
  | upperHex
  deriving DecidableEq

structure Spec where
  fill : Char := ' '
  align? : Option Alignment := none
  plus : Bool := false
  alternate : Bool := false
  zero : Bool := false
  width : Nat := 0
  precision? : Option Nat := none
  radix : Radix := .decimal
  deriving DecidableEq

namespace Spec

def plain : Spec := {}

def limit : Nat := 65535

def InRange (s : Spec) : Prop := s.width ≤ limit ∧ s.precision?.getD 0 ≤ limit

instance (s : Spec) : Decidable s.InRange :=
  inferInstanceAs (Decidable (s.width ≤ limit ∧ s.precision?.getD 0 ≤ limit))

/-- Writes a text to the specification, unless a number in it is out of range. -/
def write (s : Spec) (text : Spec → Text) : Except Fault Text :=
  if s.InRange then .ok (text s) else .error .specOutOfRange

/-- Fills a text up to the width. Of an odd number of fills around a centred text,
the larger half stands on the right. -/
def pad (s : Spec) (usual : Alignment) (t : Text) : Text :=
  let gap := s.width - t.length
  let before := match s.align?.getD usual with
    | .left => 0
    | .centre => gap / 2
    | .right => gap
  List.replicate before s.fill ++ t ++ List.replicate (gap - before) s.fill

def padText (s : Spec) (t : Text) : Text :=
  match s.precision? with
  | some p => s.pad .left (t.take p)
  | none => s.pad .left t

def sign (s : Spec) (negative : Bool) : Text :=
  if negative then ['-'] else if s.plus then ['+'] else []

/-- A number in two parts, so that the `0` flag can put zeros between them. -/
def padNumber (s : Spec) (lead digits : Text) : Text :=
  if s.zero then
    lead ++ List.replicate (s.width - (lead ++ digits).length) '0' ++ digits
  else s.pad .right (lead ++ digits)

/-- The numbers that the names `w` and `p` stand for. -/
structure Arguments where
  w? : Option Nat := none
  p? : Option Nat := none

def Arguments.get? (given : Arguments) : Char → Option Nat
  | 'w' => given.w?
  | 'p' => given.p?
  | _ => none

def alignment? : Char → Option Alignment
  | '<' => some .left
  | '^' => some .centre
  | '>' => some .right
  | _ => none

def takeAlignment (s : Spec) : Text → Spec × Text
  | [] => (s, [])
  | [c] => match alignment? c with
    | some a => ({ s with align? := some a }, [])
    | none => (s, [c])
  | c :: d :: rest => match alignment? d with
    | some a => ({ s with fill := c, align? := some a }, rest)
    | none => match alignment? c with
      | some a => ({ s with align? := some a }, d :: rest)
      | none => (s, c :: d :: rest)

def takePlus (s : Spec) : Text → Spec × Text
  | '+' :: rest => ({ s with plus := true }, rest)
  | '-' :: rest => (s, rest)
  | t => (s, t)

def takeAlternate (s : Spec) : Text → Spec × Text
  | '#' :: rest => ({ s with alternate := true }, rest)
  | t => (s, t)

def takeZero (s : Spec) : Text → Spec × Text
  | '0' :: rest => ({ s with zero := true }, rest)
  | t => (s, t)

/-- Takes a count at the head of a text: digits, or a name followed by `$`. The
result is none for a name without a number, and holds none where no count stands. -/
def takeCount (given : Arguments) : Text → Option (Option Nat × Text)
  | c :: '$' :: rest => (given.get? c).map fun n => (some n, rest)
  | t =>
    let digits := t.takeWhile Char.isDigit
    if digits.isEmpty then some (none, t)
    else some (some (Nat.ofDigitChars 10 digits 0), t.dropWhile Char.isDigit)

def takePrecision (given : Arguments) (s : Spec) : Text → Option (Spec × Text)
  | '.' :: rest => match takeCount given rest with
    | some (some n, rest) => some ({ s with precision? := some n }, rest)
    | _ => none
  | t => some (s, t)

def takeStyle (s : Spec) : Text → Option (Style × Spec)
  | [] => some (.display, s)
  | ['?'] => some (.debug, s)
  | ['x', '?'] => some (.debug, { s with radix := .lowerHex })
  | ['X', '?'] => some (.debug, { s with radix := .upperHex })
  | _ => none

def readBody (given : Arguments) (t : Text) : Option (Style × Spec) := do
  let (s, t) := takeAlignment plain t
  let (s, t) := takePlus s t
  let (s, t) := takeAlternate s t
  let (s, t) := takeZero s t
  let (width?, t) ← takeCount given t
  let (s, t) ← takePrecision given { s with width := width?.getD 0 } t
  takeStyle s t

def read (given : Arguments) (t : Text) : Option (Style × Spec) :=
  match t with
  | ['\x7b', '\x7d'] => some (.display, plain)
  | '\x7b' :: ':' :: rest =>
    if rest.getLast? = some '\x7d' then readBody given rest.dropLast else none
  | _ => none

end Spec

end Nominal
