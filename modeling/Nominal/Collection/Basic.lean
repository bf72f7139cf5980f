/-! Collections over a type that comes with its own comparison, equality and digest.
Sorting is stable. An ordered set is a list in ascending order without repetition. A
set by digest tells two values apart unless both the values and their digests are
equal. -/

namespace Nominal.Collection

variable {V : Type}

/-- Ascending order; equal values keep their places. -/
def sort (compare : V → V → Ordering) (vs : List V) : List V :=
  vs.mergeSort fun a b => compare a b != .gt

def sortDescending (compare : V → V → Ordering) (vs : List V) : List V :=
  vs.mergeSort fun a b => compare b a != .gt

def dedupAfter (equal : V → V → Bool) (kept : V) : List V → List V
  | [] => []
  | v :: rest =>
    if equal v kept then dedupAfter equal kept rest else v :: dedupAfter equal v rest

/-- Keeps a value unless it equals the last value kept. -/
def dedup (equal : V → V → Bool) : List V → List V
  | [] => []
  | v :: rest => v :: dedupAfter equal v rest

def reduce? (choose : V → V → V) : List V → Option V
  | [] => none
  | v :: rest => some (rest.foldl choose v)

/-- The greatest value, the last one of several. -/
def greatest? (compare : V → V → Ordering) : List V → Option V :=
  reduce? fun a b => if compare a b = .gt then a else b

def least? (compare : V → V → Ordering) : List V → Option V :=
  reduce? fun a b => if compare a b = .gt then b else a

/-- The last value that exceeded all before it, by an order that may be partial. -/
def foldGreatest? (compare : V → V → Option Ordering) : List V → Option V :=
  reduce? fun a b => if compare b a == some .gt then b else a

def foldLeast? (compare : V → V → Option Ordering) : List V → Option V :=
  reduce? fun a b => if compare b a == some .lt then b else a

def isSorted (compare : V → V → Option Ordering) : List V → Bool
  | v :: w :: rest =>
    (compare v w == some .lt || compare v w == some .eq) && isSorted compare (w :: rest)
  | _ => true

def insert (compare : V → V → Ordering) (v : V) : List V → List V
  | [] => [v]
  | w :: rest => match compare v w with
    | .lt => v :: w :: rest
    | .eq => w :: rest
    | .gt => w :: insert compare v rest

def orderedSet (compare : V → V → Ordering) (vs : List V) : List V :=
  vs.foldl (fun set v => insert compare v set) []

/-- How a set by digest knows one of its values. -/
structure Digest (V : Type) where
  equal : V → V → Bool
  hash : V → List UInt8

def Digest.contains (d : Digest V) (set : List V) (v : V) : Bool :=
  set.any fun w => d.equal v w && d.hash v == d.hash w

def Digest.insert (d : Digest V) (set : List V) (v : V) : List V :=
  if d.contains set v then set else v :: set

def Digest.ofList (d : Digest V) (vs : List V) : List V := vs.foldl d.insert []

end Nominal.Collection
