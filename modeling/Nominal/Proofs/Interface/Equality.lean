import Nominal.Proofs.Capability
import Nominal.Proofs.Interface.Order

/-! Equality behind interfaces, also where it is no equality to rely on. Floating-point numbers
make two exceptions: what is not a number equals nothing, not even itself, and the two zeros
are equal although one can be told from the other. A value made of others inherits both. So
equality is always symmetric and transitive, and on exact values it is the equality of values. -/

namespace Nominal

variable {V W : Type}

structure PartialEquality (equal : V → V → Bool) : Prop where
  symm : ∀ {a b}, equal a b = true → equal b a = true
  trans : ∀ {a b c}, equal a b = true → equal b c = true → equal a c = true

theorem PartialEquality.comm {equal : V → V → Bool} (partially : PartialEquality equal) (a b : V) :
    equal a b = equal b a :=
  Bool.eq_iff_iff.mpr ⟨partially.symm, partially.symm⟩

theorem PartialEquality.of_decides {equal : V → V → Bool}
    (decides : ∀ a b, equal a b = true ↔ a = b) : PartialEquality equal where
  symm same := (decides _ _).mpr ((decides _ _).mp same).symm
  trans ab bc := (decides _ _).mpr (((decides _ _).mp ab).trans ((decides _ _).mp bc))

namespace Binary

variable {f : FloatFormat}

def unsignZero : Binary f → Binary f
  | .nan => .nan
  | .number negative magnitude bounded => .number (negative && magnitude ≠ 0) magnitude bounded

theorem unsignZero_eq_nan_iff (x : Binary f) : x.unsignZero = .nan ↔ x = .nan := by
  cases x <;> simp [unsignZero]

theorem rank_inj_iff (s t : Bool) (m n : Nat) :
    rank s m = rank t n ↔ (s && m ≠ 0) = (t && n ≠ 0) ∧ m = n := by
  cases s <;> cases t <;> simp [rank] <;> omega

theorem equal_iff (x y : Binary f) : x.equal y = true ↔ x.unsignZero = y.unsignZero ∧ x ≠ .nan := by
  cases x with
  | nan => simp [equal, partialCompare]
  | number s m hm =>
    cases y with
    | nan => simp [equal, partialCompare, unsignZero]
    | number t n hn =>
      have told : (number s m hm).equal (number t n hn) = true ↔ rank s m = rank t n := by
        rw [equal, partialCompare, beq_iff_eq, Option.some.injEq]
        exact Std.LawfulEqCmp.compare_eq_iff_eq
      simp only [told, rank_inj_iff, unsignZero, number.injEq, ne_eq, reduceCtorEq,
        not_false_eq_true, and_true]

end Binary

namespace Ty

def unsignZeros : (t : Ty) → t.Carrier → t.Carrier
  | float _ => Binary.unsignZero
  | pair first second => Prod.map first.unsignZeros second.unsignZeros
  | option inner => Option.map inner.unsignZeros
  | list inner => List.map inner.unsignZeros
  | shared inner | view inner => inner.unsignZeros
  | wrapped _ inner => Wrapped.map inner.unsignZeros
  | _ => id

/-- Whether some part of a value is not a number where a number could be. -/
def holdsNan : (t : Ty) → t.Carrier → Bool
  | float _ => fun x : Binary _ => decide (x = .nan)
  | pair first second => fun p => first.holdsNan p.1 || second.holdsNan p.2
  | option inner => fun v : Option inner.Carrier => v.any inner.holdsNan
  | list inner => fun vs : List inner.Carrier => vs.any inner.holdsNan
  | shared inner | view inner => inner.holdsNan
  | wrapped _ inner => fun w => inner.holdsNan w.value
  | _ => fun _ => false

theorem holdsNan_unsignZeros (t : Ty) (v : t.Carrier) :
    t.holdsNan (t.unsignZeros v) = t.holdsNan v := by
  induction t with
  | float f => exact decide_eq_decide.mpr (Binary.unsignZero_eq_nan_iff v)
  | pair first second ihFirst ihSecond =>
    have parts : (first.holdsNan (first.unsignZeros v.1) ||
        second.holdsNan (second.unsignZeros v.2)) = (first.holdsNan v.1 || second.holdsNan v.2) := by
      rw [ihFirst, ihSecond]
    exact parts
  | option inner ih =>
    cases v with
    | none => rfl
    | some v => exact ih v
  | list inner ih =>
    have same : inner.holdsNan ∘ inner.unsignZeros = inner.holdsNan := funext ih
    exact List.any_map.trans (congrArg (List.any v) same)
  | shared inner ih | view inner ih => exact ih v
  | wrapped tag inner ih => exact ih v.value
  | _ => rfl

theorem unsignZeros_of_isExact (t : Ty) (exact : t.isExact = true) (v : t.Carrier) :
    t.unsignZeros v = v := by
  induction t with
  | float f => cases exact
  | pair first second ihFirst ihSecond =>
    obtain ⟨left, right⟩ := Bool.and_eq_true_iff.mp exact
    exact Prod.ext (ihFirst left v.1) (ihSecond right v.2)
  | option inner ih => exact (congrArg (Option.map · v) (funext (ih exact))).trans Option.map_id'
  | list inner ih => exact (congrArg (List.map · v) (funext (ih exact))).trans (List.map_id' _)
  | shared inner ih | view inner ih => exact ih exact v
  | wrapped tag inner ih => exact Wrapped.ext (ih (Bool.and_eq_true_iff.mp exact).2 v.value)
  | _ => rfl

theorem holdsNan_of_isExact (t : Ty) (exact : t.isExact = true) (v : t.Carrier) :
    t.holdsNan v = false := by
  induction t with
  | float f => cases exact
  | pair first second ihFirst ihSecond =>
    obtain ⟨left, right⟩ := Bool.and_eq_true_iff.mp exact
    exact Bool.or_eq_false_iff.mpr ⟨ihFirst left v.1, ihSecond right v.2⟩
  | option inner ih =>
    cases v with
    | none => rfl
    | some v => exact ih exact v
  | list inner ih => exact List.any_eq_false.mpr fun u _ => Bool.eq_false_iff.mp (ih exact u)
  | shared inner ih | view inner ih => exact ih exact v
  | wrapped tag inner ih => exact ih (Bool.and_eq_true_iff.mp exact).2 v.value
  | _ => rfl

end Ty

namespace Interface

variable {equal : V → V → Bool} {key : V → V} {nan : V → Bool}
  (agrees : ∀ a b, equal a b = true ↔ key a = key b ∧ nan a = false)
include agrees

theorem equalPairs_iff_of_key {equal' : W → W → Bool} {key' : W → W} {nan' : W → Bool}
    (agrees' : ∀ a b, equal' a b = true ↔ key' a = key' b ∧ nan' a = false) (p q : V × W) :
    (equal p.1 q.1 && equal' p.2 q.2) = true ↔
      Prod.map key key' p = Prod.map key key' q ∧ (nan p.1 || nan' p.2) = false := by
  rw [Bool.and_eq_true, agrees, agrees', Bool.or_eq_false_iff, Prod.ext_iff]
  exact and_and_and_comm

theorem equalOptions_iff_of_key (a b : Option V) :
    equalOptions equal a b = true ↔ a.map key = b.map key ∧ a.any nan = false := by
  cases a <;> cases b <;> simp [equalOptions, agrees]

theorem equalLists_iff_of_key (vs ws : List V) :
    equalLists equal vs ws = true ↔ vs.map key = ws.map key ∧ vs.any nan = false := by
  induction vs generalizing ws with
  | nil => cases ws <;> simp [equalLists]
  | cons v vs ih =>
    cases ws with
    | nil => simp [equalLists]
    | cons w ws =>
      rw [equalLists, Bool.and_eq_true, agrees, ih, List.map_cons, List.map_cons, List.cons.injEq,
        List.any_cons, Bool.or_eq_false_iff]
      exact and_and_and_comm

end Interface

namespace Ty

/-- Two values are equal when nothing but the signs of zeros tells them apart and no part of
them is not a number. -/
theorem equal_iff (t : Ty) : ∀ equal ∈ t.interface.equal?, ∀ a b,
    equal a b = true ↔ t.unsignZeros a = t.unsignZeros b ∧ t.holdsNan a = false := by
  induction t with
  | float f =>
    rintro _ ⟨⟩ x y
    exact (Binary.equal_iff x y).trans (and_congr_right' decide_eq_false_iff_not.symm)
  | pair first second ihFirst ihSecond =>
    intro equal has p q
    obtain ⟨front, hf, back, hs, rfl⟩ := Interface.mem_both.mp has
    exact Interface.equalPairs_iff_of_key (ihFirst front hf) (ihSecond back hs) p q
  | option inner ih =>
    intro equal has
    obtain ⟨equal, he, rfl⟩ := Option.map_eq_some_iff.mp has
    exact Interface.equalOptions_iff_of_key (ih equal he)
  | list inner ih =>
    intro equal has
    obtain ⟨equal, he, rfl⟩ := Option.map_eq_some_iff.mp has
    exact Interface.equalLists_iff_of_key (ih equal he)
  | shared inner ih | view inner ih => exact ih
  | wrapped tag inner ih =>
    intro equal has a b
    obtain ⟨name, -, equal, he, rfl⟩ := Tag.mem_forward.mp has
    rw [ih equal he]
    exact and_congr_left' Wrapped.ext_iff.symm
  -- The other types are exact.
  | _ =>
    intro equal has a b
    exact (decidesEquality _ rfl equal has a b).trans (and_iff_left rfl).symm

theorem partialEquality (t : Ty) : ∀ equal ∈ t.interface.equal?, PartialEquality equal := by
  intro equal has
  have agrees := t.equal_iff equal has
  -- Values that differ in the signs of zeros alone are not numbers in the same places.
  have shared {a b : t.Carrier} (same : t.unsignZeros a = t.unsignZeros b) :
      t.holdsNan a = t.holdsNan b := by
    rw [← t.holdsNan_unsignZeros a, same, t.holdsNan_unsignZeros]
  constructor
  · intro a b ab
    obtain ⟨same, number⟩ := (agrees a b).mp ab
    exact (agrees b a).mpr ⟨same.symm, shared same ▸ number⟩
  · intro a b c ab bc
    obtain ⟨same, number⟩ := (agrees a b).mp ab
    exact (agrees a c).mpr ⟨same.trans ((agrees b c).mp bc).1, number⟩

end Ty

end Nominal
