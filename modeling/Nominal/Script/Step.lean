import Nominal.Interface.Basic

/-! Steps of a script over one wrapper. A step is what a user of the wrapper can do
with it: put a value in, look at it, compute, compare, move it by one unit, write it
or read it from text. Values in a step are those of the wrapped type.

The right operand of a binary step comes in three shapes: a wrapper of the same type,
a bare value, or the state itself as a wrapper. -/

namespace Nominal

inductive Operand (V : Type) where
  | wrapped (v : V)
  | bare (v : V)
  | itself

def Operand.contribution {V : Type} (state : V) : Operand V → V
  | .wrapped v => v
  | .bare v => v
  | .itself => state

inductive Relation where
  | eq
  | ne
  | lt
  | le
  | gt
  | ge
  deriving DecidableEq

/-- What a relation says, from the outcome of the test for equality and that of the
comparison. Only equality and its opposite look at the first, and what is not in
order stands in none of the four relations that look at the second. -/
def Relation.decide? (equal? : Option Bool) (order? : Option (Option Ordering)) :
    Relation → Option Bool
  | .eq => equal?
  | .ne => equal?.map not
  | .lt => order?.map fun o => o == some .lt
  | .le => order?.map fun o => o == some .lt || o == some .eq
  | .gt => order?.map fun o => o == some .gt
  | .ge => order?.map fun o => o == some .gt || o == some .eq

inductive Reading where
  | borrow
  | extract
  | clone
  | copy
  deriving DecidableEq

inductive Moment where
  | before
  | after
  deriving DecidableEq

inductive Mapping (V : Type) where
  | constant (v : V)
  | identity
  | square
  | double
  | abs

inductive Edit where
  | append (t : Text)
  | clear
  | upper
  | reverse

inductive Measure where
  | bytes
  | scalars

inductive Landmark where
  | zero
  | one
  deriving DecidableEq

inductive Bound where
  | least
  | greatest
  deriving DecidableEq

inductive Extremum where
  | max
  | min
  deriving DecidableEq

inductive Step (V : Type) where
  | wrap (v : V)
  | assign (v : V)
  | reset
  | look (how : Reading)
  | replace (v : V)
  | take
  | copyThenAssign (v : V)
  | map (g : Mapping V)
  | edit (e : Edit)
  | measure (m : Measure)
  | operate (op : Operator) (rhs : Operand V)
  | compound (op : Operator) (rhs : Operand V)
  | negate
  | move (d : Direction) (answer : Moment)
  | chain (moves : List Direction)
  | step (d : Direction)
  | bareStep (d : Direction)
  | relate (r : Relation) (rhs : Operand V)
  | partialCompare (rhs : Operand V)
  | compare (v : V)
  | extremum (e : Extremum) (v : V)
  | clamp (low high : V)
  | hash
  | checked (op : Operator) (rhs : Operand V)
  | saturating (op : Operator) (rhs : Operand V)
  | landmark (l : Landmark)
  | isLandmark (l : Landmark)
  | bound (b : Bound)
  | display (s : Spec)
  | debug (s : Spec)
  | parse (input : Text)
  /-- A step that the wrapper does not have, whatever its values would be. -/
  | unavailable

inductive Answer (V : Type) where
  | nothing
  | value (v : V)
  | truth (b : Bool)
  | ordering (o : Option Ordering)
  | text (t : Text)
  | count (n : Nat)
  | bytes (bs : List UInt8)
  /-- A checked operator without a result. -/
  | absent
  | accepted
  | rejected (r : Rejection)

inductive Reply (V : Type) where
  | done (a : Answer V)
  | fault (f : Fault)
  | unsupported

structure Entry (V : Type) where
  reply : Reply V
  state : V

end Nominal
