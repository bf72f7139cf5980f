import Nominal.Interface.Plain

/-! Interfaces of pairs, optional values, lists and of the ways to reach a value
without owning it. A compound type has an operation when its parts have it, and
orders and digests its parts from left to right. -/

namespace Nominal.Interface

variable {V W α β γ : Type}

def both (a? : Option α) (b? : Option β) (join : α → β → γ) : Option γ :=
  match a?, b? with
  | some a, some b => some (join a b)
  | _, _ => none

/-- The second parts are looked at only if the first parts are equal. -/
def comparePairs (first : V → V → Ordering) (second : W → W → Ordering) (p q : V × W) : Ordering :=
  (first p.1 q.1).then (second p.2 q.2)

def partialComparePairs (first : V → V → Option Ordering) (second : W → W → Option Ordering)
    (p q : V × W) : Option Ordering :=
  match first p.1 q.1 with
  | some .eq => second p.2 q.2
  | decided => decided

def pair (I : Interface V) (J : Interface W) : Interface (V × W) where
  initial? := both I.initial? J.initial? Prod.mk
  clonable := I.clonable && J.clonable
  copyable := I.copyable && J.copyable
  sendable := I.sendable && J.sendable
  shareable := I.shareable && J.shareable
  debug? := both I.debug? J.debug? fun first second s p =>
    s.enclose '(' ')' [first s p.1, second s p.2]
  equal? := both I.equal? J.equal? fun first second p q => first p.1 q.1 && second p.2 q.2
  reflexive := I.reflexive && J.reflexive
  partialCompare? := both I.partialCompare? J.partialCompare? partialComparePairs
  compare? := both I.compare? J.compare? comparePairs
  hash? := both I.hash? J.hash? fun first second p => first p.1 ++ second p.2
  bounds? := both I.bounds? J.bounds? fun first second =>
    ⟨(first.least, second.least), (first.greatest, second.greatest)⟩

def compareOptions (compare : V → V → Ordering) : Option V → Option V → Ordering
  | none, none => .eq
  | none, some _ => .lt
  | some _, none => .gt
  | some v, some w => compare v w

def partialCompareOptions (compare : V → V → Option Ordering) :
    Option V → Option V → Option Ordering
  | none, none => some .eq
  | none, some _ => some .lt
  | some _, none => some .gt
  | some v, some w => compare v w

def equalOptions (equal : V → V → Bool) : Option V → Option V → Bool
  | none, none => true
  | some v, some w => equal v w
  | _, _ => false

def debugOption (debug : Spec → V → Text) (s : Spec) : Option V → Text
  | none => "None".toList
  | some v => s.labelled "Some".toList (debug s v)

/-- The number of values there are goes before the value. -/
def hashOption (hash : V → List UInt8) : Option V → List UInt8
  | none => countBytes 0
  | some v => countBytes 1 ++ hash v

def presentValues : List (Option V) → List V
  | some v :: rest => v :: presentValues rest
  | _ => []

/-- A total over the values before the first absent one, which makes the outcome
absent unless the total stopped before it was reached. -/
def totalOptions (total : List V → Except Fault V) (vs : List (Option V)) :
    Except Fault (Option V) :=
  (total (presentValues vs)).map fun v => if vs.all Option.isSome then some v else none

def option (I : Interface V) : Interface (Option V) where
  initial? := some none
  clonable := I.clonable
  copyable := I.copyable
  sendable := I.sendable
  shareable := I.shareable
  debug? := I.debug?.map debugOption
  equal? := I.equal?.map equalOptions
  reflexive := I.reflexive
  partialCompare? := I.partialCompare?.map partialCompareOptions
  compare? := I.compare?.map compareOptions
  hash? := I.hash?.map hashOption
  sum? := I.sum?.map totalOptions
  product? := I.product?.map totalOptions

/-- Order of two lists by the first place where they differ; a list comes after
everything it continues. -/
def partialCompareLists (compare : V → V → Option Ordering) : List V → List V → Option Ordering
  | [], [] => some .eq
  | [], _ :: _ => some .lt
  | _ :: _, [] => some .gt
  | v :: vs, w :: ws => match compare v w with
    | some .eq => partialCompareLists compare vs ws
    | decided => decided

def equalLists (equal : V → V → Bool) : List V → List V → Bool
  | [], [] => true
  | v :: vs, w :: ws => equal v w && equalLists equal vs ws
  | _, _ => false

def list (I : Interface V) : Interface (List V) where
  initial? := some []
  clonable := I.clonable
  sendable := I.sendable
  shareable := I.shareable
  debug? := I.debug?.map fun debug s vs => s.enclose '[' ']' (vs.map (debug s))
  equal? := I.equal?.map equalLists
  reflexive := I.reflexive
  partialCompare? := I.partialCompare?.map partialCompareLists
  compare? := I.compare?.map List.compareLex
  hash? := I.hash?.map fun hash vs => countBytes vs.length ++ vs.flatMap hash

def view (I : Interface V) : Interface V where
  clonable := true
  copyable := true
  sendable := I.shareable
  shareable := I.shareable
  display? := I.display?
  debug? := I.debug?
  equal? := I.equal?
  reflexive := I.reflexive
  partialCompare? := I.partialCompare?
  compare? := I.compare?
  hash? := I.hash?

def shared (I : Interface V) : Interface V where
  initial? := I.initial?
  clonable := true
  display? := I.display?
  debug? := I.debug?
  equal? := I.equal?
  reflexive := I.reflexive
  partialCompare? := I.partialCompare?
  compare? := I.compare?
  hash? := I.hash?

/-- An address, which says nothing about the value that it leads to. -/
def address : Interface Nat where
  clonable := true
  copyable := true
  equal? := some fun a b => a == b
  reflexive := true
  partialCompare? := some fun a b => some (compare a b)
  compare? := some compare
  hash? := some countBytes

end Nominal.Interface
