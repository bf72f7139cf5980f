import Nominal.Proofs.Binary.Pattern
import Nominal.Proofs.Collection.Sorted
import Nominal.Proofs.Interface.Equality

/-! Comparisons of wrapped floating-point numbers. What is not a number stands in no relation to
anything but that of being different. Other numbers are in the order of the values that their
patterns stand for, and the zeros of both signs are all that is equal without being the same. A
list is in order when every item precedes all later ones, which what is not a number can only do
if it is alone. -/

namespace Nominal

namespace Relation

/-- What a relation says after a comparison that may have found no order. -/
def tells (r : Relation) : Option Ordering → Bool
  | none => r == .ne
  | some o => r.holds o

theorem decide?_partial (r : Relation) (o : Option Ordering) :
    r.decide? (some (o == some .eq)) (some o) = some (r.tells o) := by
  cases r <;> rcases o with _ | _ | _ | _ <;> rfl

section Values

variable {α : Type} [LinearOrder α]

def Relates : Relation → α → α → Prop
  | .eq => (· = ·)
  | .ne => (· ≠ ·)
  | .lt => (· < ·)
  | .le => (· ≤ ·)
  | .gt => (· > ·)
  | .ge => (· ≥ ·)

theorem holds_cmp_iff (r : Relation) (a b : α) : r.holds (cmp a b) = true ↔ r.Relates a b := by
  rcases lt_trichotomy a b with less | rfl | greater
  · rw [(cmp_eq_lt_iff a b).mpr less]
    cases r <;> simp [holds, Relates, less, less.le, less.ne, less.not_gt, less.not_ge]
  · rw [cmp_self_eq_eq]
    cases r <;> simp [holds, Relates]
  · rw [(cmp_eq_gt_iff a b).mpr greater]
    cases r <;> simp [holds, Relates, greater, greater.le, greater.ne', greater.not_gt,
      greater.not_ge]

theorem Relates.trans {r : Relation} (positive : r ≠ .ne) {a b c : α} (ab : r.Relates a b)
    (bc : r.Relates b c) : r.Relates a c := by
  cases r with
  | eq => exact Eq.trans ab bc
  | ne => exact absurd rfl positive
  | lt => exact lt_trans ab bc
  | le => exact le_trans ab bc
  | gt => exact gt_trans ab bc
  | ge => exact ge_trans ab bc

end Values

end Relation

namespace FloatFormat.Pattern

variable {f : FloatFormat} {x y z : f.Pattern} {r : Relation}

theorem partialCompare_of_nan (nan : x.IsNan ∨ y.IsNan) :
    x.number.partialCompare y.number = none := by
  rcases nan with left | right
  · rw [number_eq_nan_iff.mpr left]
    rfl
  · rw [number_eq_nan_iff.mpr right]
    cases x.number <;> rfl

theorem exists_value (ordered : ¬ x.IsNan) : ∃ p, x.value? = some p :=
  Option.ne_none_iff_exists'.mp fun none => ordered (x.value?_eq_none_iff.mp none)

theorem partialCompare_of_values {p q : Extended} (left : x.value? = some p)
    (right : y.value? = some q) : x.number.partialCompare y.number = some (cmp p q) :=
  Binary.partialCompare_eq ((value?_number x).trans left) ((value?_number y).trans right)

theorem tells_iff (positive : r ≠ .ne) : r.tells (x.number.partialCompare y.number) = true ↔
    ∃ p q, x.value? = some p ∧ y.value? = some q ∧ r.Relates p q := by
  by_cases nan : x.IsNan ∨ y.IsNan
  · rw [partialCompare_of_nan nan]
    refine iff_of_false ?_ ?_
    · simpa [Relation.tells] using positive
    · rintro ⟨p, q, left, right, -⟩
      rcases nan with nan | nan
      · rw [x.value?_eq_none_iff.mpr nan] at left
        cases left
      · rw [y.value?_eq_none_iff.mpr nan] at right
        cases right
  · obtain ⟨ordered, ordered'⟩ := not_or.mp nan
    obtain ⟨p, left⟩ := exists_value ordered
    obtain ⟨q, right⟩ := exists_value ordered'
    rw [partialCompare_of_values left right, Relation.tells, Relation.holds_cmp_iff]
    simp [left, right]

theorem tells_trans (positive : r ≠ .ne)
    (xy : r.tells (x.number.partialCompare y.number) = true)
    (yz : r.tells (y.number.partialCompare z.number) = true) :
    r.tells (x.number.partialCompare z.number) = true := by
  obtain ⟨a, b, hx, hy, ab⟩ := (tells_iff positive).mp xy
  obtain ⟨b', c, hy', hz, bc⟩ := (tells_iff positive).mp yz
  obtain rfl : b = b' := Option.some.inj (hy.symm.trans hy')
  exact (tells_iff positive).mpr ⟨a, c, hx, hz, ab.trans positive bc⟩

theorem tells_eq_iff (ordered : ¬ x.IsNan) (ordered' : ¬ y.IsNan) :
    Relation.eq.tells (x.number.partialCompare y.number) = true ↔ x = y ∨ x.IsZero ∧ y.IsZero := by
  obtain ⟨bounded, left⟩ := exists_number ordered
  obtain ⟨bounded', right⟩ := exists_number ordered'
  have same : x.negative = y.negative ∧ x.magnitude = y.magnitude ↔ x = y := by
    refine ⟨fun parts => number_inj ordered ?_, fun same => same ▸ ⟨rfl, rfl⟩⟩
    simp only [left, right, parts]
  have equal : Relation.eq.tells (x.number.partialCompare y.number) = x.number.equal y.number := by
    rw [Binary.equal]
    rcases x.number.partialCompare y.number with _ | _ | _ | _ <;> rfl
  rw [equal, left, right, Binary.equal_iff]
  simp only [Binary.unsignZero, Binary.number.injEq, ne_eq, reduceCtorEq, not_false_eq_true,
    and_true, isZero_iff, ← same]
  by_cases zero : x.magnitude = 0
  · by_cases zero' : y.magnitude = 0
    · simp [zero, zero']
    · have apart : 0 ≠ y.magnitude := Ne.symm zero'
      simp [zero, zero', apart]
  · simp only [zero, not_false_eq_true, decide_true, Bool.and_true, false_and, or_false,
      and_congr_left_iff]
    intro level
    simp [← level, zero]

end FloatFormat.Pattern

namespace Wrapped

variable {tag : Tag} {f : FloatFormat} {name : Text}

def ofPattern (tag : Tag) (x : f.Pattern) : Wrapped tag (Binary f) := ⟨x.number⟩

/-- In every shape of the operand a comparison finds the relation to hold. -/
def Affirms (tag : Tag) (r : Relation) (x y : f.Pattern) : Prop :=
  ∀ rhs, rhs.contribution x.number = y.number →
    perform (.float f) (ofPattern tag x) (.relate r rhs) = answer (.truth true) (ofPattern tag x)

structure ComparesAs (tag : Tag) (x : f.Pattern) (rhs : Operand (Binary f))
    (p q : Extended) : Prop where
  partially : perform (.float f) (ofPattern tag x) (.partialCompare rhs) =
    answer (.ordering (some (cmp p q))) (ofPattern tag x)
  relation : ∀ r, perform (.float f) (ofPattern tag x) (.relate r rhs) =
    answer (.truth (r.holds (cmp p q))) (ofPattern tag x)
  meaning : ∀ r : Relation, r.holds (cmp p q) = true ↔ r.Relates p q
  one : ∃ r ∈ [Relation.lt, .eq, .gt],
    perform (.float f) (ofPattern tag x) (.relate r rhs) =
        answer (.truth true) (ofPattern tag x) ∧
      ∀ r' ∈ [Relation.lt, .eq, .gt], r' ≠ r →
        perform (.float f) (ofPattern tag x) (.relate r' rhs) =
          answer (.truth false) (ofPattern tag x)

/-- The comparisons of a wrapper go by what patterns stand for. -/
structure ComparesPatterns (tag : Tag) (f : FloatFormat) : Prop where
  unordered : ∀ (x y : f.Pattern) rhs, rhs.contribution x.number = y.number → x.IsNan ∨ y.IsNan →
    perform (.float f) (ofPattern tag x) (.partialCompare rhs) =
        answer (.ordering none) (ofPattern tag x) ∧
      ∀ r, perform (.float f) (ofPattern tag x) (.relate r rhs) =
        answer (.truth (r == .ne)) (ofPattern tag x)
  ordered : ∀ x y : f.Pattern, ¬ x.IsNan → ¬ y.IsNan →
    ∃ p q, x.value? = some p ∧ y.value? = some q ∧
      ∀ rhs, rhs.contribution x.number = y.number → ComparesAs tag x rhs p q
  equal : ∀ x y : f.Pattern, ¬ x.IsNan → ¬ y.IsNan →
    (Affirms tag .eq x y ↔ x = y ∨ x.IsZero ∧ y.IsZero)
  trans : ∀ r ≠ .ne, ∀ x y z : f.Pattern,
    Affirms tag r x y → Affirms tag r y z → Affirms tag r x z
  sorted : ∀ xs : List f.Pattern, ∃ b,
    performList (.float f) (xs.map (ofPattern tag)) .isSorted =
        (.done (.truth b), xs.map (ofPattern tag)) ∧
      (b = true ↔ xs.length ≤ 1 ∨ (∀ x ∈ xs, ¬ x.IsNan) ∧ xs.Pairwise (Affirms tag .le))

section Named

variable (named : tag.name? = some name)
include named

theorem perform_partialCompare_float (x : f.Pattern) (rhs : Operand (Binary f)) :
    perform (.float f) (ofPattern tag x) (.partialCompare rhs) =
      answer (.ordering (x.number.partialCompare (rhs.contribution x.number)))
        (ofPattern tag x) := by
  simp only [perform, partialCompare?_eq, Interface.float, Tag.forward_named named]
  rfl

theorem perform_relate_float (x : f.Pattern) (r : Relation) (rhs : Operand (Binary f)) :
    perform (.float f) (ofPattern tag x) (.relate r rhs) =
      answer (.truth (r.tells (x.number.partialCompare (rhs.contribution x.number))))
        (ofPattern tag x) := by
  simp only [perform, equal?_eq, partialCompare?_eq, Interface.float, Tag.forward_named named,
    Binary.equal, Relation.decide?_partial]
  rfl

theorem affirms_iff (r : Relation) (x y : f.Pattern) :
    Affirms tag r x y ↔ r.tells (x.number.partialCompare y.number) = true := by
  have told (b : Bool) : answer (.truth b) (ofPattern tag x) =
      answer (.truth true) (ofPattern tag x) ↔ b = true := by
    simp [answer]
  constructor
  · intro affirms
    have reply := affirms (.bare y.number) rfl
    rwa [perform_relate_float named, told] at reply
  · intro holds rhs contributed
    rwa [perform_relate_float named, told, contributed]

theorem comparesAs {x y : f.Pattern} {p q : Extended} (left : x.value? = some p)
    (right : y.value? = some q) {rhs : Operand (Binary f)}
    (contributed : rhs.contribution x.number = y.number) : ComparesAs tag x rhs p q := by
  have relation (r : Relation) : perform (.float f) (ofPattern tag x) (.relate r rhs) =
      answer (.truth (r.holds (cmp p q))) (ofPattern tag x) := by
    rw [perform_relate_float named, contributed,
      FloatFormat.Pattern.partialCompare_of_values left right]
    rfl
  refine ⟨?_, relation, fun r => r.holds_cmp_iff p q, ?_⟩
  · rw [perform_partialCompare_float named, contributed,
      FloatFormat.Pattern.partialCompare_of_values left right]
  · obtain ⟨r, mem, holds, others⟩ := Relation.exists_only (cmp p q)
    refine ⟨r, mem, by rw [relation, holds], fun r' mem' other => ?_⟩
    rw [relation, others r' mem' other]

theorem affirms_trans {r : Relation} (positive : r ≠ .ne) {x y z : f.Pattern}
    (xy : Affirms tag r x y) (yz : Affirms tag r y z) : Affirms tag r x z := by
  rw [affirms_iff named] at xy yz ⊢
  exact FloatFormat.Pattern.tells_trans positive xy yz

theorem isSorted_float_iff (xs : List f.Pattern) :
    Collection.isSorted (fun a b : Wrapped tag (Binary f) => a.value.partialCompare b.value)
        (xs.map (ofPattern tag)) = true ↔ xs.Pairwise (Affirms tag .le) := by
  have : Trans (Affirms tag .le) (Affirms tag .le) (Affirms tag .le : f.Pattern → _) :=
    ⟨affirms_trans named (by decide)⟩
  have neighbours (o : Option Ordering) :
      (o == some .lt || o == some .eq) = Relation.le.tells o := by
    rcases o with _ | _ | _ | _ <;> rfl
  rw [← List.isChain_iff_pairwise, Collection.isSorted_iff_isChain, List.isChain_map]
  simp only [neighbours]
  exact List.IsChain.iff fun x y => (affirms_iff named .le x y).symm

theorem numbers_of_affirms {r : Relation} (positive : r ≠ .ne) {x y : f.Pattern}
    (affirms : Affirms tag r x y) : ¬ x.IsNan ∧ ¬ y.IsNan := by
  obtain ⟨p, q, left, right, -⟩ :=
    (FloatFormat.Pattern.tells_iff positive).mp ((affirms_iff named r x y).mp affirms)
  rw [← x.value?_eq_none_iff, ← y.value?_eq_none_iff, left, right]
  exact ⟨nofun, nofun⟩

theorem pairwise_affirms_iff {r : Relation} (positive : r ≠ .ne) (xs : List f.Pattern) :
    xs.Pairwise (Affirms tag r) ↔
      xs.length ≤ 1 ∨ (∀ x ∈ xs, ¬ x.IsNan) ∧ xs.Pairwise (Affirms tag r) := by
  rcases xs with _ | ⟨x, _ | ⟨y, rest⟩⟩
  · simp
  · simp
  · refine ⟨fun ordered => .inr ⟨?_, ordered⟩, fun cases => ?_⟩
    · have numbers (z : f.Pattern) (later : z ∈ y :: rest) : ¬ x.IsNan ∧ ¬ z.IsNan :=
        numbers_of_affirms named positive (List.rel_of_pairwise_cons ordered later)
      exact List.forall_mem_cons.mpr
        ⟨(numbers y List.mem_cons_self).1, fun z later => (numbers z later).2⟩
    · rcases cases with short | ⟨-, ordered⟩
      · simp at short
      · exact ordered

theorem compares_patterns : ComparesPatterns tag f where
  unordered x y rhs contributed nan := by
    have none := FloatFormat.Pattern.partialCompare_of_nan nan
    refine ⟨?_, fun r => ?_⟩
    · rw [perform_partialCompare_float named, contributed, none]
    · rw [perform_relate_float named, contributed, none]
      rfl
  ordered x y ordered ordered' := by
    obtain ⟨p, left⟩ := FloatFormat.Pattern.exists_value ordered
    obtain ⟨q, right⟩ := FloatFormat.Pattern.exists_value ordered'
    exact ⟨p, q, left, right, fun _ => comparesAs named left right⟩
  equal x y ordered ordered' :=
    (affirms_iff named .eq x y).trans (FloatFormat.Pattern.tells_eq_iff ordered ordered')
  trans _ positive _ _ _ := affirms_trans named positive
  sorted xs := by
    refine ⟨_, ?_, (isSorted_float_iff named xs).trans (pairwise_affirms_iff named (by decide) xs)⟩
    simp only [performList, Interface.wrap, Interface.float, Tag.forward_named named]
    rfl

end Named

/-- Two zeros that are not the same pattern, and a list whose only item is not a number. -/
theorem compares_patterns_ratio :
    let tag : Tag := .named "Ratio"
    let positive : FloatFormat.Pattern .double := .ofNat _ 0
    let negative : FloatFormat.Pattern .double := .ofNat _ 0x8000000000000000
    let nan : FloatFormat.Pattern .double := .ofNat _ 0x7FF8000000000001
    negative ≠ positive ∧ Affirms tag .eq negative positive ∧
      (∀ r, perform (.float .double) (ofPattern tag nan) (.relate r .itself) =
        answer (.truth (r == .ne)) (ofPattern tag nan)) ∧
      performList (.float .double) [ofPattern tag nan] .isSorted =
        (.done (.truth true), [ofPattern tag nan]) ∧
      performList (.float .double) [ofPattern tag negative, ofPattern tag nan] .isSorted =
        (.done (.truth false), [ofPattern tag negative, ofPattern tag nan]) := by
  intro tag positive negative nan
  have named : tag.name? = some "Ratio".toList := rfl
  have compares := compares_patterns (f := .double) named
  have strange : nan.IsNan := by decide
  refine ⟨by decide, ?_, (compares.unordered nan nan .itself rfl (.inl strange)).2, ?_, ?_⟩
  · exact (compares.equal negative positive (by decide) (by decide)).mpr (.inr (by decide))
  · obtain ⟨b, reply, sorted⟩ := compares.sorted [nan]
    rwa [sorted.mpr (.inl le_rfl)] at reply
  · obtain ⟨b, reply, sorted⟩ := compares.sorted [negative, nan]
    have unsorted : b = false := by
      refine Bool.eq_false_iff.mpr fun ascends => ?_
      rcases sorted.mp ascends with short | ⟨numbers, -⟩
      · exact absurd short (by decide)
      · exact numbers nan (by simp) strange
    rwa [unsorted] at reply

end Wrapped

end Nominal
