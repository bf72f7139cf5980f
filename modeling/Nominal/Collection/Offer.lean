import Nominal.Collection.Run

/-! The steps that lists of a wrapper have. As with a single wrapper, the tag and the
interface of the wrapped value decide, and neither the list nor the values in the
step have a say. -/

namespace Nominal.Wrapped

variable {V W : Type}

/-- Whether lists of a wrapper have a step. The values in the step may be of any type. -/
def offersList (tag : Tag) (I : Interface V) : ListStep W → Bool
  | .sort | .sortDescending | .orderedSet | .greatest | .least | .lexCompare _ =>
    (I.wrap tag).compare?.isSome
  | .dedup | .occurrences _ => (I.wrap tag).equal?.isSome
  | .hashSet _ => (digest? (I.wrap tag)).isSome
  | .position _ => (I.equalBare? tag).isSome
  | .isSorted | .foldGreatest | .foldLeast => (I.wrap tag).partialCompare?.isSome
  | .below _ => (I.partialCompareBare? tag).isSome
  | .sum => (I.wrap tag).sum?.isSome
  | .sumRef => (I.wrap tag).sumRef?.isSome
  | .product => (I.wrap tag).product?.isSome
  | .productRef => (I.wrap tag).productRef?.isSome
  | .join => (I.wrap tag).display?.isSome
  | .debug _ => (I.wrap tag).debug?.isSome
  | .unavailable => false

variable {tag : Tag}

@[simp] theorem rearrange_unsupported_iff (ws : List (Wrapped tag V))
    (next? : Option (List (Wrapped tag V))) :
    (rearrange ws next?).1 = .unsupported ↔ next?.isSome = false := by
  cases next? <;> simp [rearrange]

@[simp] theorem report_unsupported_iff (ws : List (Wrapped tag V))
    (answer? : Option (ListAnswer V)) :
    (report ws answer?).1 = .unsupported ↔ answer?.isSome = false := by
  cases answer? <;> simp [report]

@[simp] theorem totalise_unsupported_iff (ws : List (Wrapped tag V))
    (total? : Option (List (Wrapped tag V) → Except Fault (Wrapped tag V))) :
    (totalise ws total?).1 = .unsupported ↔ total?.isSome = false := by
  match total? with
  | none => simp [totalise]
  | some total => cases h : total ws <;> simp [totalise, h]

@[simp] theorem inscribe_unsupported_iff (s : Spec) (ws : List (Wrapped tag V))
    (text? : Option (Spec → List (Wrapped tag V) → Text)) :
    (inscribe s ws text?).1 = .unsupported ↔ text?.isSome = false := by
  match text? with
  | none => simp [inscribe]
  | some text => by_cases fits : s.InRange <;> simp [inscribe_some, fits]

theorem performList_unsupported_iff (I : Interface V) (ws : List (Wrapped tag V))
    (s : ListStep V) : (performList I ws s).1 = .unsupported ↔ offersList tag I s = false := by
  cases s <;> simp [performList, offersList]

end Nominal.Wrapped
