import Nominal.Proofs.Arithmetic
import Nominal.Proofs.Calculation

/-! Plain arithmetic under any number of tags. All that the later proofs need to know of a
plain integer type is how its operators answer in terms of the integers that its values
stand for, and this survives every tag that is put around the values. -/

namespace Nominal

variable {V : Type} {A : Arithmetic V} {f : IntFormat} {number : V → Int}

/-- An arithmetic of values that stand for the integers of a format, each for one, and
whose operators give what they owe these integers. -/
structure Arithmetic.IsPlain (A : Arithmetic V) (f : IntFormat) (number : V → Int) : Prop where
  apply : ∀ op a b, (A.apply op a b).map number = op.owed f (number a) (number b)
  zero : number A.zero = 0
  one : number A.one = 1
  inRange : ∀ v, f.InRange (number v)
  injective : ∀ v w, number v = number w → v = w

theorem Operator.owed_of_not_divides {op : Operator} (ring : ¬ op.Divides) (a b : Int) :
    op.owed f a b =
      if f.InRange (op.exact a b) then .ok (op.exact a b) else .error (.overflow op) := by
  rw [owed_of_regular fun divides => absurd divides ring]
  exact if_neg fun special => ring (.inr special.1)

namespace Arithmetic.IsPlain

theorem ofFormat (f : IntFormat) : (Arithmetic.plain f).IsPlain f FixedInt.toInt where
  apply := FixedInt.apply_eq_owed
  zero := rfl
  one := rfl
  inRange := FixedInt.inRange
  injective _ _ := FixedInt.ext

theorem wrap (plain : A.IsPlain f number) (tag : Tag) :
    (A.wrap tag).IsPlain f fun w => number w.value where
  apply op a b := Wrapped.map_value_map_mk (plain.apply op a.value b.value)
  zero := plain.zero
  one := plain.one
  inRange w := plain.inRange w.value
  injective _ _ same := Wrapped.ext (plain.injective _ _ same)

theorem nest (f : IntFormat) (tags : List Tag) :
    ((Arithmetic.plain f).nest tags).IsPlain f Nest.number := by
  induction tags with
  | nil => exact ofFormat f
  | cons tag tags ih => exact ih.wrap tag

theorem number_of_apply (plain : A.IsPlain f number) {op : Operator} (ring : ¬ op.Divides)
    {a b c : V} (made : A.apply op a b = .ok c) : number c = op.exact (number a) (number b) := by
  have owes := plain.apply op a b
  rw [made, Operator.owed_of_not_divides ring] at owes
  split at owes
  · exact Except.ok.inj owes
  · cases owes

theorem exists_apply_of_owed (plain : A.IsPlain f number) {op : Operator} {a b : V} {n : Int}
    (owes : op.owed f (number a) (number b) = .ok n) :
    ∃ c, A.apply op a b = .ok c ∧ number c = n := by
  rw [← plain.apply] at owes
  cases applied : A.apply op a b with
  | ok c =>
    rw [applied] at owes
    exact ⟨c, rfl, Except.ok.inj owes⟩
  | error fault =>
    rw [applied] at owes
    cases owes

theorem apply_of_owed_error (plain : A.IsPlain f number) {op : Operator} {a b : V} {fault : Fault}
    (owes : op.owed f (number a) (number b) = .error fault) : A.apply op a b = .error fault := by
  rw [← plain.apply] at owes
  cases applied : A.apply op a b with
  | ok c =>
    rw [applied] at owes
    cases owes
  | error fault =>
    rw [applied] at owes
    cases owes
    rfl

theorem exists_apply (plain : A.IsPlain f number) {op : Operator} (ring : ¬ op.Divides) {a b : V}
    (fits : f.InRange (op.exact (number a) (number b))) :
    ∃ c, A.apply op a b = .ok c ∧ number c = op.exact (number a) (number b) :=
  plain.exists_apply_of_owed ((Operator.owed_of_not_divides ring _ _).trans (if_pos fits))

theorem apply_of_not_inRange (plain : A.IsPlain f number) {op : Operator} (ring : ¬ op.Divides)
    {a b : V} (leaves : ¬ f.InRange (op.exact (number a) (number b))) :
    A.apply op a b = .error (.overflow op) :=
  plain.apply_of_owed_error ((Operator.owed_of_not_divides ring _ _).trans (if_neg leaves))

end Arithmetic.IsPlain

end Nominal
