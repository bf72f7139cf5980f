import Nominal.Fault
import Nominal.Rejection

/-! The interface of a type: the operations that its values have, each of them
present or absent. Whatever asks which operations a type has, and whatever runs
them, reads the same record, so that the two cannot disagree.

The first part of the record is what a wrapper forwards. The second part belongs to
the type alone and stays out of sight behind a wrapper, unless the wrapper has a
method of its own for it. -/

namespace Nominal

structure Identity (V : Type) where
  value : V
  test : V → Bool

structure Bounds (V : Type) where
  least : V
  greatest : V

structure TextView (V : Type) where
  text : V → Text
  ofText : Text → V

inductive Direction where
  | forward
  | backward
  deriving DecidableEq

def Direction.opposite : Direction → Direction
  | .forward => .backward
  | .backward => .forward

inductive Capability where
  | display
  | debug
  | clone
  | copy
  | default
  | eq
  | ord
  | hash
  | neg
  | sum
  | sumRef
  | product
  | productRef
  | zero
  | one
  | bounded
  | parse
  | step
  | send
  | sync
  deriving DecidableEq

namespace Capability

def all : List Capability :=
  [.display, .debug, .clone, .copy, .default, .eq, .ord, .hash, .neg, .sum, .sumRef, .product,
    .productRef, .zero, .one, .bounded, .parse, .step, .send, .sync]

def name : Capability → String
  | .display => "display"
  | .debug => "debug"
  | .clone => "clone"
  | .copy => "copy"
  | .default => "default"
  | .eq => "eq"
  | .ord => "ord"
  | .hash => "hash"
  | .neg => "neg"
  | .sum => "sum"
  | .sumRef => "sum_ref"
  | .product => "product"
  | .productRef => "product_ref"
  | .zero => "zero"
  | .one => "one"
  | .bounded => "bounded"
  | .parse => "parse"
  | .step => "step"
  | .send => "send"
  | .sync => "sync"

end Capability

structure Interface (V : Type) where
  initial? : Option V := none
  clonable : Bool := false
  copyable : Bool := false
  /-- Whether values may move to another thread. -/
  sendable : Bool := false
  /-- Whether values may be seen from several threads. -/
  shareable : Bool := false
  display? : Option (Spec → V → Text) := none
  debug? : Option (Spec → V → Text) := none
  equal? : Option (V → V → Bool) := none
  /-- Whether equality is known to hold between every value and itself. -/
  reflexive : Bool := false
  partialCompare? : Option (V → V → Option Ordering) := none
  compare? : Option (V → V → Ordering) := none
  hash? : Option (V → List UInt8) := none
  neg? : Option (V → Except Fault V) := none
  operate? : Operator → Option (V → V → Except Fault V) := fun _ => none
  /-- The compound form of an operator, which replaces its left operand. -/
  assign? : Operator → Option (V → V → Except Fault V) := fun _ => none
  zero? : Option (Identity V) := none
  one? : Option (Identity V) := none
  bounds? : Option (Bounds V) := none
  sum? : Option (List V → Except Fault V) := none
  /-- The sum of values that are only looked at. -/
  sumRef? : Option (List V → Except Fault V) := none
  product? : Option (List V → Except Fault V) := none
  productRef? : Option (List V → Except Fault V) := none
  read? : Option (Text → Except Rejection V) := none
  abs? : Option (V → Except Fault V) := none
  text? : Option (TextView V) := none
  checked? : Operator → Option (V → V → Option V) := fun _ => none
  saturating? : Operator → Option (V → V → V) := fun _ => none

namespace Interface

variable {V : Type}

/-- A move by one unit, for a type that has a one and both compound forms it takes. -/
def step? (I : Interface V) : Option (Direction → V → Except Fault V) :=
  match I.one?, I.assign? .add, I.assign? .sub with
  | some one, some up, some down => some fun
    | .forward, v => up v one.value
    | .backward, v => down v one.value
  | _, _, _ => none

def has (I : Interface V) : Capability → Bool
  | .display => I.display?.isSome
  | .debug => I.debug?.isSome
  | .clone => I.clonable
  | .copy => I.copyable
  | .default => I.initial?.isSome
  | .eq => I.reflexive
  | .ord => I.compare?.isSome
  | .hash => I.hash?.isSome
  | .neg => I.neg?.isSome
  | .sum => I.sum?.isSome
  | .sumRef => I.sumRef?.isSome
  | .product => I.product?.isSome
  | .productRef => I.productRef?.isSome
  | .zero => I.zero?.isSome
  | .one => I.one?.isSome
  | .bounded => I.bounds?.isSome
  | .parse => I.read?.isSome
  | .step => I.step?.isSome
  | .send => I.sendable
  | .sync => I.shareable

def capabilities (I : Interface V) : List Capability := Capability.all.filter I.has

end Interface

end Nominal
