import Nominal.Catalogue
import Nominal.Proofs.Integer.Plain
import Nominal.Proofs.Integer.Residue

/-! Division with remainder. A quotient and a remainder are refused together. Where they are
not, the quotient times the divisor and the remainder on top give the dividend back. On plain
numbers nothing on this way leaves the range, for the product and the remainder both lie
between zero and the dividend. Where the numbers wrap around, the way back holds of residues. -/

namespace Nominal

variable {V : Type} {A : Arithmetic V} {f : IntFormat} {number : V → Int}

/-- A quotient and a remainder that make up a dividend. The remainder is smaller than the
divisor and on the same side of zero as the dividend. -/
structure Truncated (n d q r : Int) : Prop where
  recomposed : n = q * d + r
  smaller : r.natAbs < d.natAbs
  sign : r = 0 ∨ r.sign = n.sign

theorem truncated_tdiv_tmod (n : Int) {d : Int} (nonzero : d ≠ 0) :
    Truncated n d (n.tdiv d) (n.tmod d) where
  recomposed := (Int.tdiv_mul_add_tmod n d).symm
  smaller := by
    rw [Int.natAbs_tmod]
    exact Nat.mod_lt _ (by omega)
  sign := by
    by_cases divides : d ∣ n
    · exact .inl (Int.tmod_eq_zero_of_dvd divides)
    · right
      rw [Int.sign_tmod, if_neg divides]

theorem truncated_iff {n d q r : Int} (nonzero : d ≠ 0) :
    Truncated n d q r ↔ q = n.tdiv d ∧ r = n.tmod d := by
  constructor
  · rintro ⟨recomposed, smaller, sign⟩
    have product : d * q = q * d := Int.mul_comm d q
    rcases Int.le_total 0 n with nonneg | nonpos
    · have above : 0 ≤ r := by
        rcases sign with rfl | same
        · exact Int.le_refl 0
        · rw [← Int.sign_nonneg_iff, same, Int.sign_nonneg_iff]
          exact nonneg
      obtain ⟨quotient, remainder⟩ := (Int.tdiv_tmod_unique (q := q) (r := r) nonneg nonzero).mpr
        (by omega)
      exact ⟨quotient.symm, remainder.symm⟩
    · have below : r ≤ 0 := by
        rcases sign with rfl | same
        · exact Int.le_refl 0
        · rw [← Int.sign_nonpos_iff, same, Int.sign_nonpos_iff]
          exact nonpos
      obtain ⟨quotient, remainder⟩ := (Int.tdiv_tmod_unique' (q := q) (r := r) nonpos nonzero).mpr
        (by omega)
      exact ⟨quotient.symm, remainder.symm⟩
  · rintro ⟨rfl, rfl⟩
    exact truncated_tdiv_tmod n nonzero

/-- The pairs that a plain integer type does not divide. -/
def IntFormat.Refuses (f : IntFormat) (a b : Int) : Prop := b = 0 ∨ a = f.min ∧ b = -1

namespace Operator

variable {op : Operator} {a b : Int}

theorem exists_owed_error (divides : op.Divides) (left : f.InRange a) (right : f.InRange b)
    (refused : f.Refuses a b) : ∃ fault, op.owed f a b = .error fault := by
  by_cases zero : b = 0
  · obtain ⟨fault, refusal⟩ := exists_refusal divides zero
    exact ⟨fault, owed_of_refusal refusal⟩
  · obtain ⟨rfl, rfl⟩ := refused.resolve_left zero
    have signed : f.signed = true := IntFormat.signed_of_inRange right (by decide)
    refine ⟨.overflow op, ?_⟩
    rw [owed_of_regular fun _ => zero]
    rcases divides with rfl | rfl
    · have leaves : ¬ f.InRange (f.min.tdiv (-1)) := fun inRange =>
        (IntFormat.inRange_tdiv_iff left right zero).mp inRange ⟨signed, rfl, rfl⟩
      rw [if_neg fun special => absurd special.1 (by decide)]
      exact if_neg leaves
    · rw [if_pos ⟨rfl, signed, rfl, rfl⟩]

theorem owed_of_divides (divides : op.Divides) (left : f.InRange a) (right : f.InRange b)
    (accepted : ¬ f.Refuses a b) : op.owed f a b = .ok (op.exact a b) := by
  obtain ⟨nonzero, ordinary⟩ := not_or.mp accepted
  have fits : f.InRange (op.exact a b) := by
    rcases divides with rfl | rfl
    · exact (IntFormat.inRange_tdiv_iff left right nonzero).mpr fun special => ordinary special.2
    · exact IntFormat.inRange_of_between left (IntFormat.tmod_between a b)
  rw [owed_of_regular fun _ => nonzero, if_neg fun special => ordinary special.2.2, if_pos fits]

end Operator

def Arithmetic.Recomposes (A : Arithmetic V) (a b q r : V) : Prop :=
  A.apply .div a b = .ok q ∧ A.apply .rem a b = .ok r ∧
    ∃ m, A.apply .mul q b = .ok m ∧ A.apply .add m r = .ok a

theorem Arithmetic.IsPlain.exists_recomposes (plain : A.IsPlain f number) {a b : V}
    (accepted : ¬ f.Refuses (number a) (number b)) :
    ∃ q r, A.Recomposes a b q r ∧ number q = (number a).tdiv (number b) ∧
      number r = (number a).tmod (number b) := by
  have inside := plain.inRange a
  have whole := Int.tdiv_mul_add_tmod (number a) (number b)
  obtain ⟨q, divided, quotient⟩ := plain.exists_apply_of_owed
    (Operator.owed_of_divides (.inl rfl) inside (plain.inRange b) accepted)
  obtain ⟨r, left, remainder⟩ := plain.exists_apply_of_owed
    (Operator.owed_of_divides (.inr rfl) inside (plain.inRange b) accepted)
  simp only [Operator.exact] at quotient remainder
  -- What the product lacks of the dividend is the remainder, so it lies between as well.
  have back : f.InRange (Operator.mul.exact (number q) (number b)) := by
    have between := IntFormat.tmod_between (number a) (number b)
    apply IntFormat.inRange_of_between inside
    rw [Operator.exact, quotient]
    omega
  obtain ⟨m, multiplied, product⟩ := plain.exists_apply (by decide) back
  have total : Operator.add.exact (number m) (number r) = number a := by
    rw [product, Operator.exact, Operator.exact, quotient, remainder, whole]
  have fits : f.InRange (Operator.add.exact (number m) (number r)) := by rwa [total]
  obtain ⟨a', added, sum⟩ := plain.exists_apply (by decide) fits
  have home : a' = a := plain.injective _ _ (sum.trans total)
  rw [home] at added
  exact ⟨q, r, ⟨divided, left, m, multiplied, added⟩, quotient, remainder⟩

theorem Arithmetic.exists_recomposes_wrapping (a : FixedInt f) {b : FixedInt f}
    (nonzero : b.toInt ≠ 0) : ∃ q r, (Arithmetic.wrapping f).Recomposes a b q r := by
  have divided : a.wrappingApply .div b = .ok (FixedInt.reduce f (a.toInt.tdiv b.toInt)) :=
    FixedInt.wrappingApply_of_regular fun _ => nonzero
  have left : a.wrappingApply .rem b = .ok (FixedInt.reduce f (a.toInt.tmod b.toInt)) :=
    FixedInt.wrappingApply_of_regular fun _ => nonzero
  have quotient := FixedInt.reduce_modEq f (a.toInt.tdiv b.toInt)
  have remainder := FixedInt.reduce_modEq f (a.toInt.tmod b.toInt)
  have whole := Int.tdiv_mul_add_tmod a.toInt b.toInt
  generalize FixedInt.reduce f (a.toInt.tdiv b.toInt) = q at divided quotient
  generalize FixedInt.reduce f (a.toInt.tmod b.toInt) = r at left remainder
  have multiplied : q.wrappingApply .mul b = .ok (FixedInt.reduce f (q.toInt * b.toInt)) :=
    FixedInt.wrappingApply_of_not_divides (by decide) q b
  have product := (FixedInt.reduce_modEq f (q.toInt * b.toInt)).trans (quotient.mul_right b.toInt)
  generalize FixedInt.reduce f (q.toInt * b.toInt) = m at multiplied product
  have added : m.wrappingApply .add r = .ok (FixedInt.reduce f (m.toInt + r.toInt)) :=
    FixedInt.wrappingApply_of_not_divides (by decide) m r
  have total := product.add remainder
  rw [whole] at total
  rw [← (FixedInt.modEq_iff_eq_reduce a _).mp total.symm] at added
  exact ⟨q, r, divided, left, m, multiplied, added⟩

inductive Operator.Form (op : Operator) (state v : V) : Step V → Prop where
  | operate (rhs : Operand V) (given : rhs.contribution state = v) :
    Form op state v (.operate op rhs)
  | compound (rhs : Operand V) (given : rhs.contribution state = v) :
    Form op state v (.compound op rhs)

namespace Wrapped

variable {tag : Tag} {name : Text} {I : Interface V}

theorem perform_operator (computes : I.Computes A) (named : tag.name? = some name)
    {op : Operator} {w : Wrapped tag V} {v : V} {s : Step V} (form : op.Form w.value v s) :
    perform I w s = settle w (some ((A.apply op w.value v).map Wrapped.mk)) := by
  cases form with
  | operate rhs given => rw [computes.perform_operate named, given]
  | compound rhs given => rw [computes.perform_compound named, given]

theorem perform_operator_of_ok (computes : I.Computes A) (named : tag.name? = some name)
    {op : Operator} {w : Wrapped tag V} {v u : V} (made : A.apply op w.value v = .ok u)
    {s : Step V} (form : op.Form w.value v s) : perform I w s = answer .nothing ⟨u⟩ := by
  rw [perform_operator computes named form, made]
  rfl

def RefusedWhere (I : Interface V) (w : Wrapped tag V) (d : V) (refused : Prop) : Prop :=
  ∀ op : Operator, op.Divides → ∀ s, op.Form w.value d s →
    ((∃ fault, perform I w s = (.fault fault, w)) ↔ refused)

structure Recomposes (I : Interface V) (w : Wrapped tag V) (d q r : V) : Prop where
  quotient : ∀ s, Operator.div.Form w.value d s → perform I w s = answer .nothing ⟨q⟩
  remainder : ∀ s, Operator.rem.Form w.value d s → perform I w s = answer .nothing ⟨r⟩
  back : ∃ m : V,
    (∀ s, Operator.mul.Form q d s → perform I (⟨q⟩ : Wrapped tag V) s = answer .nothing ⟨m⟩) ∧
      ∀ s, Operator.add.Form m r s → perform I (⟨m⟩ : Wrapped tag V) s = answer .nothing w

theorem recomposes (computes : I.Computes A) (named : tag.name? = some name) {w : Wrapped tag V}
    {d q r : V} (fits : A.Recomposes w.value d q r) : Recomposes I w d q r := by
  obtain ⟨divided, left, m, multiplied, added⟩ := fits
  refine ⟨fun s => ?_, fun s => ?_, m, fun s => ?_, fun s => ?_⟩
  · exact perform_operator_of_ok computes named divided
  · exact perform_operator_of_ok computes named left
  · exact perform_operator_of_ok computes named multiplied
  · exact perform_operator_of_ok computes named added

theorem refusedWhere (computes : I.Computes A) (named : tag.name? = some name)
    {w : Wrapped tag V} {d : V} {refused : Prop}
    (stops : refused → ∀ op : Operator, op.Divides → ∃ fault, A.apply op w.value d = .error fault)
    (goes : ¬ refused → ∃ q r, A.Recomposes w.value d q r) : RefusedWhere I w d refused := by
  intro op divides s form
  rw [perform_operator computes named form]
  by_cases here : refused
  · obtain ⟨fault, stopped⟩ := stops here op divides
    rw [stopped]
    exact iff_of_true ⟨fault, rfl⟩ here
  · obtain ⟨q, r, divided, left, -⟩ := goes here
    refine iff_of_false ?_ here
    rintro ⟨fault, stopped⟩
    rcases divides with rfl | rfl
    · rw [divided] at stopped
      cases congrArg Prod.fst stopped
    · rw [left] at stopped
      cases congrArg Prod.fst stopped

/-- Over a plain integer type a division and its remainder are refused for a divisor of zero and
for the least number over minus one, over a type that wraps around only for a divisor of zero.
Otherwise quotient and remainder lead back to the dividend, and no other two integers do. -/
theorem division_recomposes (f : IntFormat) (tag : Tag) (named : tag.name?.isSome = true) :
    (∀ tags : List Tag, (∀ t ∈ tags, t.name?.isSome = true) →
      ∀ (w : Wrapped tag (Nest tags (FixedInt f))) (d : Nest tags (FixedInt f)),
        RefusedWhere ((Interface.integer f).nest tags) w d
            (d.number = 0 ∨ w.value.number = f.min ∧ d.number = -1) ∧
          (¬ (d.number = 0 ∨ w.value.number = f.min ∧ d.number = -1) →
            ∃ q r, Recomposes ((Interface.integer f).nest tags) w d q r ∧
              ∀ m n : Int, Truncated w.value.number d.number m n ↔
                m = q.number ∧ n = r.number)) ∧
      ∀ (w : Wrapped tag (FixedInt f)) (d : FixedInt f),
        RefusedWhere (Interface.wrapping f) w d (d.toInt = 0) ∧
          (d.toInt ≠ 0 → ∃ q r, Recomposes (Interface.wrapping f) w d q r) := by
  obtain ⟨name, named⟩ := Option.isSome_iff_exists.mp named
  constructor
  · intro tags inner w d
    have plain := Arithmetic.IsPlain.nest f tags
    have computes := (Interface.computes_integer f).nest inner
    constructor
    · refine refusedWhere computes named (fun refused op divides => ?_) fun accepted => ?_
      · obtain ⟨fault, owes⟩ := Operator.exists_owed_error divides (plain.inRange w.value)
          (plain.inRange d) refused
        exact ⟨fault, plain.apply_of_owed_error owes⟩
      · obtain ⟨q, r, fits, -⟩ := plain.exists_recomposes accepted
        exact ⟨q, r, fits⟩
    · intro accepted
      obtain ⟨q, r, fits, quotient, remainder⟩ := plain.exists_recomposes accepted
      refine ⟨q, r, recomposes computes named fits, fun m n => ?_⟩
      rw [quotient, remainder]
      exact truncated_iff fun zero => accepted (.inl zero)
  · intro w d
    have computes := Interface.computes_wrapping f
    constructor
    · refine refusedWhere computes named (fun zero op divides => ?_) fun nonzero => ?_
      · obtain ⟨fault, refusal⟩ := Operator.exists_refusal divides zero
        exact ⟨fault, FixedInt.wrappingApply_of_refusal refusal⟩
      · exact Arithmetic.exists_recomposes_wrapping w.value nonzero
    · intro nonzero
      obtain ⟨q, r, fits⟩ := Arithmetic.exists_recomposes_wrapping w.value nonzero
      exact ⟨q, r, recomposes computes named fits⟩

/-- The least number over minus one is refused where it would overflow and recomposes where it
wraps around. A wrapper in a wrapper takes the remainder of a negative number. -/
theorem division_recomposes_least :
    let w : Wrapped Catalogue.outerTag (Nest [Catalogue.meterTag] (FixedInt .int32)) :=
      ⟨⟨FixedInt.clamp .int32 (-2147483647)⟩⟩
    let d : Nest [Catalogue.meterTag] (FixedInt .int32) := ⟨FixedInt.clamp .int32 10⟩
    let least : Wrapped Catalogue.outerTag (FixedInt .int32) := ⟨FixedInt.least .int32⟩
    let minusOne : FixedInt .int32 := FixedInt.clamp .int32 (-1)
    Catalogue.outerTag.name?.isSome = true ∧
      (∃ q r : Nest [Catalogue.meterTag] (FixedInt .int32),
        Recomposes Catalogue.meter.interface w d q r ∧ Nest.number q = -214748364 ∧
        Nest.number r = -7) ∧
      (∃ fault, perform (Interface.integer .int32) least (.operate .rem (.bare minusOne)) =
        (.fault fault, least)) ∧
      ∃ q r, Recomposes (Interface.wrapping .int32) least minusOne q r := by
  intro w d least minusOne
  have named : Catalogue.outerTag.name?.isSome = true := by decide
  obtain ⟨plain, wraps⟩ := division_recomposes .int32 Catalogue.outerTag named
  obtain ⟨-, goes⟩ := plain [Catalogue.meterTag] (by decide) w d
  obtain ⟨refused, -⟩ := plain [] (by decide) least minusOne
  obtain ⟨q, r, back, only⟩ := goes (by decide)
  have found := (only (-214748364) (-7)).mp ⟨by decide, by decide, .inr (by decide)⟩
  refine ⟨named, ⟨q, r, back, found.1.symm, found.2.symm⟩, ?_, (wraps least minusOne).2 (by decide)⟩
  exact (refused .rem (.inr rfl) _ (.operate (.bare minusOne) rfl)).mpr (.inr ⟨rfl, rfl⟩)

end Wrapped

end Nominal
