import Nominal.Binary.Arithmetic
import Nominal.Binary.Text
import Nominal.Integer.Arithmetic
import Nominal.Integer.Text
import Nominal.Interface.Basic

/-! Interfaces of the number types. The three integer types of one format share their
values, texts and order, and differ in what their operators do at the bounds. Only
the plain one can be read from text. Floating-point numbers have no total order and
no digest, for what is not a number is not equal to itself. -/

namespace Nominal.Interface

def integerBase (f : IntFormat) : Interface (FixedInt f) where
  initial? := some (FixedInt.zero f)
  clonable := true
  copyable := true
  sendable := true
  shareable := true
  display? := some FixedInt.display
  debug? := some FixedInt.debug
  equal? := some fun a b => a = b
  reflexive := true
  partialCompare? := some fun a b => some (a.compare b)
  compare? := some FixedInt.compare
  hash? := some FixedInt.bytes

def integerZero (f : IntFormat) : Identity (FixedInt f) where
  value := FixedInt.zero f
  test a := a = FixedInt.zero f

def integerOne (f : IntFormat) : Identity (FixedInt f) where
  value := FixedInt.one f
  test a := a = FixedInt.one f

def integerBounds (f : IntFormat) : Bounds (FixedInt f) where
  least := FixedInt.least f
  greatest := FixedInt.greatest f

def hasSaturating : Operator → Bool
  | .add | .sub | .mul => true
  | .div | .rem => false

def integer (f : IntFormat) : Interface (FixedInt f) :=
  { integerBase f with
    neg? := if f.signed then some FixedInt.neg else none
    operate? := fun op => some (FixedInt.apply op)
    assign? := fun op => some (FixedInt.apply op)
    zero? := some (integerZero f)
    one? := some (integerOne f)
    bounds? := some (integerBounds f)
    sum? := some FixedInt.sum
    sumRef? := some FixedInt.sum
    product? := some FixedInt.product
    productRef? := some FixedInt.product
    read? := some fun t => (FixedInt.read f t).mapError .integer
    abs? := if f.signed then some FixedInt.abs else none
    checked? := fun op => some (FixedInt.checked op)
    saturating? := fun op => if hasSaturating op then some (FixedInt.saturating op) else none }

def wrapping (f : IntFormat) : Interface (FixedInt f) :=
  { integerBase f with
    neg? := some fun a => .ok a.wrappingNeg
    operate? := fun op => some (FixedInt.wrappingApply op)
    assign? := fun op => some (FixedInt.wrappingApply op)
    zero? := some (integerZero f)
    one? := some (integerOne f)
    bounds? := some (integerBounds f)
    sum? := some FixedInt.wrappingSum
    sumRef? := some FixedInt.wrappingSum
    product? := some FixedInt.wrappingProduct
    productRef? := some FixedInt.wrappingProduct
    abs? := if f.signed then some FixedInt.abs else none }

def saturating (f : IntFormat) : Interface (FixedInt f) :=
  { integerBase f with
    neg? := if f.signed then some fun a => .ok a.saturatingNeg else none
    operate? := fun op => some (FixedInt.saturatingApply op)
    assign? := fun op => some (FixedInt.saturatingApply op) }

def float (f : FloatFormat) : Interface (Binary f) where
  initial? := some (Binary.zero false)
  clonable := true
  copyable := true
  sendable := true
  shareable := true
  display? := some Binary.display
  debug? := some Binary.debug
  equal? := some Binary.equal
  partialCompare? := some Binary.partialCompare
  neg? := some fun x => .ok x.neg
  operate? op := some fun x y => .ok (Binary.apply op x y)
  assign? op := some fun x y => .ok (Binary.apply op x y)
  zero? := some ⟨Binary.zero false, fun x => x.equal (Binary.zero false)⟩
  one? := some ⟨Binary.one, fun x => x.equal Binary.one⟩
  bounds? := some ⟨Binary.extreme true, Binary.extreme false⟩
  sum? := some fun xs => .ok (Binary.sum xs)
  sumRef? := some fun xs => .ok (Binary.sum xs)
  product? := some fun xs => .ok (Binary.product xs)
  productRef? := some fun xs => .ok (Binary.product xs)
  read? := some fun t => (Binary.read f t).mapError .float
  abs? := some fun x => .ok x.abs

end Nominal.Interface
