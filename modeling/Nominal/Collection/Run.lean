import Nominal.Collection.Basic
import Nominal.Text.Layout
import Nominal.Wrapped

/-! Scripts over a list of wrappers. Sorting and removing repetitions change the list,
and every other step only looks at it. As with a single wrapper, a step that the
interface does not offer, or that stops with a fault, leaves the list as it is. -/

namespace Nominal

inductive ListStep (V : Type) where
  | sort
  | sortDescending
  | dedup
  | orderedSet
  | greatest
  | least
  | lexCompare (key : List V)
  | hashSet (key : V)
  | position (key : V)
  | occurrences (key : V)
  | isSorted
  | foldGreatest
  | foldLeast
  | below (key : V)
  | sum
  | sumRef
  | product
  | productRef
  | join
  | debug (s : Spec)
  /-- A step that lists of the wrapper do not have, whatever its values would be. -/
  | unavailable

inductive ListAnswer (V : Type) where
  | values (vs : List V)
  | value? (v? : Option V)
  | total (v : V)
  | ordering (o : Ordering)
  | set (size : Nat) (holdsKey : Bool)
  | index? (i? : Option Nat)
  | count (n : Nat)
  | truth (b : Bool)
  | text (t : Text)

inductive ListReply (V : Type) where
  | done (a : ListAnswer V)
  | fault (f : Fault)
  | unsupported

def joinDisplayed {V : Type} (display : Spec → V → Text) (vs : List V) : Text :=
  Text.join [' '] (vs.map (display Spec.plain))

namespace Wrapped

variable {tag : Tag} {V : Type}

/-- Answers with a rearranged list and takes it over. -/
def rearrange (ws : List (Wrapped tag V)) :
    Option (List (Wrapped tag V)) → ListReply V × List (Wrapped tag V)
  | none => (.unsupported, ws)
  | some next => (.done (.values (next.map value)), next)

def report (ws : List (Wrapped tag V)) (answer? : Option (ListAnswer V)) :
    ListReply V × List (Wrapped tag V) :=
  match answer? with
  | none => (.unsupported, ws)
  | some a => (.done a, ws)

def totalise (ws : List (Wrapped tag V))
    (total? : Option (List (Wrapped tag V) → Except Fault (Wrapped tag V))) :
    ListReply V × List (Wrapped tag V) :=
  match total? with
  | none => (.unsupported, ws)
  | some total => match total ws with
    | .ok w => (.done (.total w.value), ws)
    | .error fault => (.fault fault, ws)

def inscribe (s : Spec) (ws : List (Wrapped tag V)) :
    Option (Spec → List (Wrapped tag V) → Text) → ListReply V × List (Wrapped tag V)
  | none => (.unsupported, ws)
  | some text => match s.write fun s => text s ws with
    | .ok t => (.done (.text t), ws)
    | .error fault => (.fault fault, ws)

theorem inscribe_some (s : Spec) (ws : List (Wrapped tag V))
    (text : Spec → List (Wrapped tag V) → Text) :
    inscribe s ws (some text) =
      if s.InRange then (.done (.text (text s ws)), ws) else (.fault .specOutOfRange, ws) := by
  by_cases fits : s.InRange <;> simp only [inscribe, Spec.write, fits, if_true, if_false]

/-- Equality and digest of a wrapper, where the equality is one to build a set on. -/
def digest? (I : Interface (Wrapped tag V)) : Option (Collection.Digest (Wrapped tag V)) :=
  match I.equal?, I.hash? with
  | some equal, some hash => if I.reflexive then some ⟨equal, hash⟩ else none
  | _, _ => none

def performList (I : Interface V) (ws : List (Wrapped tag V)) :
    ListStep V → ListReply V × List (Wrapped tag V)
  | .sort => rearrange ws ((I.wrap tag).compare?.map fun compare => Collection.sort compare ws)
  | .sortDescending => rearrange ws ((I.wrap tag).compare?.map fun compare =>
      Collection.sortDescending compare ws)
  | .dedup => rearrange ws ((I.wrap tag).equal?.map fun equal => Collection.dedup equal ws)
  | .orderedSet => report ws ((I.wrap tag).compare?.map fun compare =>
      .values ((Collection.orderedSet compare ws).map value))
  | .greatest => report ws ((I.wrap tag).compare?.map fun compare =>
      .value? ((Collection.greatest? compare ws).map value))
  | .least => report ws ((I.wrap tag).compare?.map fun compare =>
      .value? ((Collection.least? compare ws).map value))
  | .lexCompare key => report ws ((I.wrap tag).compare?.map fun compare =>
      .ordering (List.compareLex compare ws (key.map Wrapped.mk)))
  | .hashSet key => report ws ((digest? (I.wrap tag)).map fun d =>
      let set := d.ofList ws
      .set set.length (d.contains set ⟨key⟩))
  | .position key => report ws ((I.equalBare? tag).map fun equal =>
      .index? (ws.findIdx? fun w => equal w key))
  | .occurrences key => report ws ((I.wrap tag).equal?.map fun equal =>
      .count (ws.countP fun w => equal w ⟨key⟩))
  | .isSorted => report ws ((I.wrap tag).partialCompare?.map fun compare =>
      .truth (Collection.isSorted compare ws))
  | .foldGreatest => report ws ((I.wrap tag).partialCompare?.map fun compare =>
      .value? ((Collection.foldGreatest? compare ws).map value))
  | .foldLeast => report ws ((I.wrap tag).partialCompare?.map fun compare =>
      .value? ((Collection.foldLeast? compare ws).map value))
  | .below key => report ws ((I.partialCompareBare? tag).map fun compare =>
      .values ((ws.filter fun w => compare w key == some .lt).map value))
  | .sum => totalise ws (I.wrap tag).sum?
  | .sumRef => totalise ws (I.wrap tag).sumRef?
  | .product => totalise ws (I.wrap tag).product?
  | .productRef => totalise ws (I.wrap tag).productRef?
  | .join => report ws ((I.wrap tag).display?.map fun display =>
      .text (joinDisplayed display ws))
  | .debug s => inscribe s ws ((I.wrap tag).debug?.map fun debug s ws =>
      s.enclose '[' ']' (ws.map (debug s)))
  | .unavailable => (.unsupported, ws)

def runList (I : Interface V) (ws : List (Wrapped tag V)) : List (ListStep V) → List (ListReply V)
  | [] => []
  | step :: rest =>
    let outcome := performList I ws step
    outcome.1 :: runList I outcome.2 rest

end Wrapped

end Nominal
