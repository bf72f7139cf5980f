import Nominal.Interface.Compound
import Nominal.Interface.Number
import Nominal.Wrapped

/-! The grammar of types. Base types are numbers, text and the like; compound types
are built from others; a wrapper is a type under a tag, and the type under it may be
a wrapper in turn. Every type has a carrier, which is the set of its values, and an
interface, which follows from the interfaces of its parts. -/

namespace Nominal

inductive Ty where
  | int (f : IntFormat)
  | wrapping (f : IntFormat)
  | saturating (f : IntFormat)
  | float (f : FloatFormat)
  | text
  | textView
  | truth
  | char
  | unit
  | pair (first second : Ty)
  | option (inner : Ty)
  | list (inner : Ty)
  | shared (inner : Ty)
  | view (inner : Ty)
  | address (inner : Ty)
  | wrapped (tag : Tag) (inner : Ty)
  deriving DecidableEq

namespace Ty

def Carrier : Ty → Type
  | int f | wrapping f | saturating f => FixedInt f
  | float f => Binary f
  | text | textView => Text
  | truth => Bool
  | char => Char
  | unit => Unit
  | pair first second => first.Carrier × second.Carrier
  | option inner => Option inner.Carrier
  | list inner => List inner.Carrier
  | shared inner | view inner => inner.Carrier
  | address _ => Nat
  | wrapped tag inner => Wrapped tag inner.Carrier

def interface : (t : Ty) → Interface t.Carrier
  | int f => Interface.integer f
  | wrapping f => Interface.wrapping f
  | saturating f => Interface.saturating f
  | float f => Interface.float f
  | text => Interface.text
  | textView => Interface.textView
  | truth => Interface.truth
  | char => Interface.char
  | unit => Interface.unit
  | pair first second => first.interface.pair second.interface
  | option inner => inner.interface.option
  | list inner => inner.interface.list
  | shared inner => inner.interface.shared
  | view inner => inner.interface.view
  | address _ => Interface.address
  | wrapped tag inner => inner.interface.wrap tag

def capabilities (t : Ty) : List Capability := t.interface.capabilities

theorem wrapped_ne_inner (tag : Tag) (inner : Ty) : wrapped tag inner ≠ inner := by
  intro same
  have := congrArg sizeOf same
  simp at this

end Ty

end Nominal
