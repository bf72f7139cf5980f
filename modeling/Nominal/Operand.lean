import Nominal.Ty

/-! Which types can stand to the right of a wrapper. The rule has two parts: the
wrapper itself, and the bare type that it wraps. A wrapper has a binary form when its
tag has a name and the wrapped type has the form with itself, and then it has it for
exactly these two operands. No other wrapper over the same type is an operand, and
neither is a type that merely converts to it.

Every form lists the rules that apply to a pair of types, so that an overlap of two
rules would show. No wrapper adds to the forms of a bare type on the left. -/

namespace Nominal

inductive BinaryForm where
  | plain (op : Operator)
  | compound (op : Operator)
  | equality
  | order
  | checked (op : Operator)
  | saturating (op : Operator)
  deriving DecidableEq

inductive OperandRule where
  | sameWrapper
  | wrappedType
  | builtIn
  deriving DecidableEq

namespace Ty

def supports (t : Ty) : BinaryForm → Bool
  | .plain op => (t.interface.operate? op).isSome
  | .compound op => (t.interface.assign? op).isSome
  | .equality => t.interface.equal?.isSome
  | .order => t.interface.partialCompare?.isSome
  | .checked op => (t.interface.checked? op).isSome
  | .saturating op => (t.interface.saturating? op).isSome

/-- Whether the values of one integer format are all values of another. A machine
word promises sixteen bits, and its own format is the only one sure to hold it. -/
def widens (source target : IntFormat) : Bool :=
  source = target ||
    (source.width ≠ .word &&
      let room := if target.width = .word then
          (if target.signed then IntFormat.int16 else IntFormat.nat16)
        else target
      room.min ≤ source.min && source.max ≤ room.max && source.width ≠ target.width)

/-- The forms of a type that is no wrapper. An integer or a float has what its
interface offers with itself, and it also computes with a view of its own kind. Of any
other type on the left nothing is here but what its interface offers with itself. -/
def builtIn (form : BinaryForm) (left right : Ty) : Bool :=
  if right = left then left.supports form
  else match left, right, form with
    | .int f, .view (.int g), .plain _ | .int f, .view (.int g), .compound _ => f = g
    | .float f, .view (.float g), .plain _ | .float f, .view (.float g), .compound _ => f = g
    | _, _, _ => false

/-- The rules by which a form applies to a pair of types. -/
def rules (form : BinaryForm) (left right : Ty) : List OperandRule :=
  match left with
  | wrapped tag inner =>
    if tag.name?.isSome ∧ inner.supports form then
      (if right = left then [.sameWrapper] else []) ++
        (if right = inner then [.wrappedType] else [])
    else []
  | _ => if builtIn form left right then [.builtIn] else []

def applies (form : BinaryForm) (left right : Ty) : Bool := !(rules form left right).isEmpty

def result? (op : Operator) (left right : Ty) : Option Ty :=
  if applies (.plain op) left right then some left else none

def isOperand (left right : Ty) : Bool :=
  match left with
  | wrapped _ inner => right = left || right = inner
  | _ => false

/-- Whether a value of the left type can be made from one of the right type. Of the
bare types only the integers are here with all that converts to them. A character
converts to the formats without a sign that are sure to hold its code. -/
def convertsFrom (left right : Ty) : Bool :=
  match left, right with
  | wrapped _ inner, right => right = left || right = inner
  | int f, int g => widens g f
  | int _, truth => true
  | int f, char => !f.signed && (f.width = .bits32 || f.width = .bits64 || f.width = .bits128)
  | left, right => right = left

end Ty

end Nominal
