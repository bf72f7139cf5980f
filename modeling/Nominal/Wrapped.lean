import Nominal.Interface.Basic

/-! Nominal wrappers. A wrapper holds one value and is kept apart from every other
type by its tag, which exists only in the type. A tag that has a name qualifies its
wrapper: the wrapper then forwards the operations of the wrapped value. Without a
name the value can be put in, looked at, replaced and taken out, and nothing else.

A forwarded operation takes the value out, lets the wrapped type do the work and
puts the result into the same wrapper. What a tag type can do itself never matters. -/

namespace Nominal

structure Tag where
  identifier : Text
  /-- The name that the wrapper goes by, for a tag that qualifies it. -/
  name? : Option Text
  sendable : Bool := true
  shareable : Bool := true
  deriving DecidableEq

structure Wrapped (tag : Tag) (V : Type) where
  value : V
  deriving DecidableEq

namespace Tag

variable {α β : Type}

/-- An operation of the wrapped value, taken over by a wrapper with a name. -/
def forward (tag : Tag) (operation? : Option α) (lift : Text → α → β) : Option β :=
  match tag.name?, operation? with
  | some name, some operation => some (lift name operation)
  | _, _ => none

theorem isSome_forward (tag : Tag) (operation? : Option α) (lift : Text → α → β) :
    (tag.forward operation? lift).isSome = (tag.name?.isSome && operation?.isSome) := by
  rcases tag with ⟨_, name?, _, _⟩
  cases name? <;> cases operation? <;> rfl

end Tag

namespace Wrapped

variable {tag : Tag} {V : Type}

@[ext] theorem ext {a b : Wrapped tag V} (same : a.value = b.value) : a = b := by
  cases a
  cases b
  simp_all

def map (g : V → V) (w : Wrapped tag V) : Wrapped tag V := ⟨g w.value⟩

def tryMap (g : V → Except Fault V) (w : Wrapped tag V) : Except Fault (Wrapped tag V) :=
  (g w.value).map Wrapped.mk

def combine (g : V → V → Except Fault V) (a b : Wrapped tag V) : Except Fault (Wrapped tag V) :=
  (g a.value b.value).map Wrapped.mk

def combineBare (g : V → V → Except Fault V) (a : Wrapped tag V) (b : V) :
    Except Fault (Wrapped tag V) :=
  (g a.value b).map Wrapped.mk

def gather (g : List V → Except Fault V) (ws : List (Wrapped tag V)) :
    Except Fault (Wrapped tag V) :=
  (g (ws.map value)).map Wrapped.mk

def identity (e : Identity V) : Identity (Wrapped tag V) where
  value := ⟨e.value⟩
  test w := e.test w.value

def bounds (b : Bounds V) : Bounds (Wrapped tag V) where
  least := ⟨b.least⟩
  greatest := ⟨b.greatest⟩

/-- Reads the wrapped value. A refusal is reported under the name of the wrapper,
with the whole input. -/
def readAs (name : Text) (read : Text → Except Rejection V) (input : Text) :
    Except Rejection (Wrapped tag V) :=
  match read input with
  | .ok v => .ok ⟨v⟩
  | .error cause => .error (.named name input cause)

end Wrapped

namespace Interface

variable {V : Type}

def wrap (tag : Tag) (I : Interface V) : Interface (Wrapped tag V) where
  initial? := I.initial?.map Wrapped.mk
  clonable := I.clonable
  copyable := I.copyable
  sendable := I.sendable
  shareable := I.shareable
  display? := tag.forward I.display? fun _ display s w => display s w.value
  debug? := tag.forward I.debug? fun name debug s w => s.labelled name (debug s w.value)
  equal? := tag.forward I.equal? fun _ equal a b => equal a.value b.value
  reflexive := tag.name?.isSome && I.reflexive
  partialCompare? := tag.forward I.partialCompare? fun _ compare a b => compare a.value b.value
  compare? := tag.forward I.compare? fun _ compare a b => compare a.value b.value
  hash? := tag.forward I.hash? fun _ hash w => hash w.value
  neg? := tag.forward I.neg? fun _ neg => Wrapped.tryMap neg
  operate? op := tag.forward (I.operate? op) fun _ operate => Wrapped.combine operate
  assign? op := tag.forward (I.assign? op) fun _ assign => Wrapped.combine assign
  zero? := tag.forward I.zero? fun _ => Wrapped.identity
  one? := tag.forward I.one? fun _ => Wrapped.identity
  bounds? := tag.forward I.bounds? fun _ => Wrapped.bounds
  sum? := tag.forward I.sum? fun _ => Wrapped.gather
  sumRef? := tag.forward I.sumRef? fun _ => Wrapped.gather
  product? := tag.forward I.product? fun _ => Wrapped.gather
  productRef? := tag.forward I.productRef? fun _ => Wrapped.gather
  read? := tag.forward I.read? fun name => Wrapped.readAs name

/-! A bare value on the right has forms of its own. -/

def operateBare? (tag : Tag) (I : Interface V) (op : Operator) :
    Option (Wrapped tag V → V → Except Fault (Wrapped tag V)) :=
  tag.forward (I.operate? op) fun _ operate => Wrapped.combineBare operate

def assignBare? (tag : Tag) (I : Interface V) (op : Operator) :
    Option (Wrapped tag V → V → Except Fault (Wrapped tag V)) :=
  tag.forward (I.assign? op) fun _ assign => Wrapped.combineBare assign

def equalBare? (tag : Tag) (I : Interface V) : Option (Wrapped tag V → V → Bool) :=
  tag.forward I.equal? fun _ equal w v => equal w.value v

def partialCompareBare? (tag : Tag) (I : Interface V) :
    Option (Wrapped tag V → V → Option Ordering) :=
  tag.forward I.partialCompare? fun _ compare w v => compare w.value v

/-! The named methods of a wrapper take the value out of whatever operand they get. -/

def checkedMethod? (tag : Tag) (I : Interface V) (op : Operator) :
    Option (Wrapped tag V → V → Option (Wrapped tag V)) :=
  tag.forward (I.checked? op) fun _ checked w v => (checked w.value v).map Wrapped.mk

def saturatingMethod? (tag : Tag) (I : Interface V) (op : Operator) :
    Option (Wrapped tag V → V → Wrapped tag V) :=
  tag.forward (I.saturating? op) fun _ saturating w v => ⟨saturating w.value v⟩

def moveMethod? (tag : Tag) (I : Interface V) :
    Option (Direction → Wrapped tag V → Except Fault (Wrapped tag V)) :=
  tag.forward I.step? fun _ step d => Wrapped.tryMap (step d)

end Interface

/-- The only value of a tag type. It takes no room and feeds nothing to a digest. -/
structure Mark (tag : Tag) where
  deriving DecidableEq

def Mark.size (_ : Tag) : Nat := 0

/-- Tag types have no default, no arithmetic and no form for readers. -/
def Mark.interface (tag : Tag) : Interface (Mark tag) where
  clonable := true
  copyable := true
  sendable := tag.sendable
  shareable := tag.shareable
  debug? := some fun _ _ => tag.identifier
  equal? := some fun a b => a = b
  reflexive := true
  partialCompare? := some fun _ _ => some .eq
  compare? := some fun _ _ => .eq
  hash? := some fun _ => []

end Nominal
