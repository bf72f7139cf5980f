import Nominal.Catalogue
import Nominal.Proofs.Integer.Exact
import Nominal.Proofs.Integer.Steps

/-! The arithmetics agree. The plain, the checked and the saturating operators are
defined apart from one another and still give one result wherever there is one. Where
the plain operator stops with a fault the checked one is without a result, and a sum,
difference or product that saturates is at the bound beyond which the exact result is. -/

namespace Nominal

namespace Operator

variable {f : IntFormat} {op : Operator} {a b : Int}

theorem divides_of_refusal {fault : Fault} (refused : op.refusal? b = some fault) :
    op.Divides ∧ b = 0 := by
  cases op with
  | div => exact ⟨.inl rfl, (Option.ite_none_right_eq_some.mp refused).1⟩
  | rem => exact ⟨.inr rfl, (Option.ite_none_right_eq_some.mp refused).1⟩
  | _ => cases refused

theorem not_fits_least (divides : op.Divides) (fits : f.InRange (-1)) :
    ¬ op.Fits f f.min (-1) := by
  have signed : f.signed = true := IntFormat.signed_of_inRange fits (by decide)
  have least : f.InRange f.min := (FixedInt.least f).inRange
  have leaves : ¬ f.InRange (f.min.tdiv (-1)) := fun inRange =>
    (IntFormat.inRange_tdiv_iff least fits (by decide)).mp inRange ⟨signed, rfl, rfl⟩
  intro misfit
  rcases divides with rfl | rfl
  · exact leaves misfit.1
  · exact leaves (misfit.2 rfl)

end Operator

namespace FixedInt

variable {f : IntFormat} {op : Operator} {a b : FixedInt f}

theorem checked_of_refusal {fault : Fault} (refused : op.refusal? b.toInt = some fault) :
    a.checked op b = none :=
  if_pos (Operator.divides_of_refusal refused)

theorem checked_of_accepted (accepted : op.refusal? b.toInt = none) :
    a.checked op b = if op.Fits f a.toInt b.toInt then ofInt? f (op.exact a.toInt b.toInt)
      else none := by
  have regular := (op.refusal?_eq_none_iff b.toInt).mp accepted
  unfold checked
  rw [if_neg fun ⟨divides, zero⟩ => regular divides zero]
  split
  · rename_i special
    obtain ⟨divides, left, right⟩ := special
    rw [left, right, if_neg (Operator.not_fits_least divides (right ▸ b.inRange))]
  · rename_i ordinary
    by_cases inRange : f.InRange (op.exact a.toInt b.toInt)
    · have fits : op.Fits f a.toInt b.toInt :=
        (op.fits_iff a.inRange b.inRange regular).mpr
          ⟨inRange, fun ⟨rem, _, left, right⟩ => ordinary ⟨.inr rem, left, right⟩⟩
      rw [if_pos fits]
    · rw [if_neg fun fits => inRange fits.1]
      exact ofInt?_eq_none_iff.mpr inRange

theorem checked_eq_toOption (op : Operator) (a b : FixedInt f) :
    a.checked op b = (a.apply op b).toOption := by
  cases refused : op.refusal? b.toInt with
  | some fault =>
    rw [checked_of_refusal refused, apply_of_refusal refused]
    rfl
  | none =>
    rw [checked_of_accepted refused]
    by_cases fits : op.Fits f a.toInt b.toInt
    · rw [if_pos fits, apply_of_fits refused fits]
      exact ofInt?_eq_some_iff.mpr rfl
    · rw [if_neg fits, apply_of_not_fits refused fits]
      rfl

theorem clamp_below {n : Int} (below : n < f.min) : clamp f n = least f :=
  ext (if_pos below)

theorem clamp_above {n : Int} (above : f.max < n) : clamp f n = greatest f := by
  have low := f.min_nonpos
  have high := f.max_ge
  have reached : ¬ n < f.min := by omega
  exact ext ((if_neg reached).trans (if_pos above))

theorem saturating_of_apply (plain : ¬ op.Divides) {x : FixedInt f} (answers : a.apply op b = .ok x) :
    a.saturating op b = x := by
  have accepted := Operator.refusal?_of_not_divides plain b.toInt
  by_cases fits : op.Fits f a.toInt b.toInt
  · rw [apply_of_fits accepted fits] at answers
    cases answers
    exact ext (clamp_of_inRange fits.1)
  · rw [apply_of_not_fits accepted fits] at answers
    cases answers

end FixedInt

namespace Wrapped

variable {tag : Tag} {f : IntFormat} {name : Text}

theorem operate_answers_or_stops (named : tag.name? = some name) (w : Wrapped tag (FixedInt f))
    (op : Operator) (rhs : Operand (FixedInt f)) :
    (∃ x, perform (Interface.integer f) w (.operate op rhs) = answer .nothing ⟨x⟩) ∨
      ∃ fault, perform (Interface.integer f) w (.operate op rhs) = (.fault fault, w) := by
  rw [perform_operate named]
  cases w.value.apply op (rhs.contribution w.value) with
  | ok x => exact .inl ⟨x, rfl⟩
  | error fault => exact .inr ⟨fault, rfl⟩

theorem checked_value_iff (named : tag.name? = some name) (w : Wrapped tag (FixedInt f))
    (op : Operator) (rhs : Operand (FixedInt f)) (x : FixedInt f) :
    perform (Interface.integer f) w (.checked op rhs) = answer (.value x) ⟨x⟩ ↔
      perform (Interface.integer f) w (.operate op rhs) = answer .nothing ⟨x⟩ := by
  rw [perform_operate named, perform_checked named, FixedInt.checked_eq_toOption]
  cases w.value.apply op (rhs.contribution w.value) with
  | ok y => simp [settle, answer, Except.map, Except.toOption]
  | error fault => simp [settle, answer, Except.map, Except.toOption]

theorem checked_absent_iff (named : tag.name? = some name) (w : Wrapped tag (FixedInt f))
    (op : Operator) (rhs : Operand (FixedInt f)) :
    perform (Interface.integer f) w (.checked op rhs) = answer .absent w ↔
      ∃ fault, perform (Interface.integer f) w (.operate op rhs) = (.fault fault, w) := by
  rw [perform_operate named, perform_checked named, FixedInt.checked_eq_toOption]
  cases w.value.apply op (rhs.contribution w.value) with
  | ok y => simp [settle, answer, Except.map, Except.toOption]
  | error fault => simp [settle, answer, Except.map, Except.toOption]

theorem saturating_of_operate (named : tag.name? = some name) {w : Wrapped tag (FixedInt f)}
    {op : Operator} (plain : ¬ op.Divides) {rhs : Operand (FixedInt f)} {x : FixedInt f}
    (answers : perform (Interface.integer f) w (.operate op rhs) = answer .nothing ⟨x⟩) :
    perform (Interface.integer f) w (.saturating op rhs) = answer .nothing ⟨x⟩ := by
  rw [perform_operate named] at answers
  rw [perform_saturating named w plain]
  cases applied : w.value.apply op (rhs.contribution w.value) with
  | ok y =>
    rw [FixedInt.saturating_of_apply plain applied]
    rw [applied] at answers
    exact answers
  | error fault =>
    rw [applied] at answers
    cases answers

theorem saturating_below (named : tag.name? = some name) {w : Wrapped tag (FixedInt f)}
    {op : Operator} (plain : ¬ op.Divides) {rhs : Operand (FixedInt f)}
    (below : op.exact w.value.toInt (rhs.contribution w.value).toInt < f.min) :
    perform (Interface.integer f) w (.saturating op rhs) =
      perform (Interface.integer f) w (.bound .least) := by
  rw [perform_saturating named w plain, perform_bound named]
  exact congrArg (fun x => answer .nothing ⟨x⟩) (FixedInt.clamp_below below)

theorem saturating_above (named : tag.name? = some name) {w : Wrapped tag (FixedInt f)}
    {op : Operator} (plain : ¬ op.Divides) {rhs : Operand (FixedInt f)}
    (above : f.max < op.exact w.value.toInt (rhs.contribution w.value).toInt) :
    perform (Interface.integer f) w (.saturating op rhs) =
      perform (Interface.integer f) w (.bound .greatest) := by
  rw [perform_saturating named w plain, perform_bound named]
  exact congrArg (fun x => answer .nothing ⟨x⟩) (FixedInt.clamp_above above)

/-- The plain, the checked and the saturating step agree in every state and on every
operand. -/
theorem arithmetics_agree (f : IntFormat) (tag : Tag) (named : tag.name?.isSome = true)
    (w : Wrapped tag (FixedInt f)) (op : Operator) (rhs : Operand (FixedInt f)) :
    ((∃ x, perform (Interface.integer f) w (.operate op rhs) = answer .nothing ⟨x⟩) ∨
        ∃ fault, perform (Interface.integer f) w (.operate op rhs) = (.fault fault, w)) ∧
      (∀ x, perform (Interface.integer f) w (.checked op rhs) = answer (.value x) ⟨x⟩ ↔
        perform (Interface.integer f) w (.operate op rhs) = answer .nothing ⟨x⟩) ∧
      (perform (Interface.integer f) w (.checked op rhs) = answer .absent w ↔
        ∃ fault, perform (Interface.integer f) w (.operate op rhs) = (.fault fault, w)) ∧
      (op = .add ∨ op = .sub ∨ op = .mul →
        (∃ x, perform (Interface.integer f) w (.saturating op rhs) = answer .nothing ⟨x⟩) ∧
        (∀ x, perform (Interface.integer f) w (.operate op rhs) = answer .nothing ⟨x⟩ →
          perform (Interface.integer f) w (.saturating op rhs) = answer .nothing ⟨x⟩) ∧
        (op.exact w.value.toInt (rhs.contribution w.value).toInt < f.min →
          perform (Interface.integer f) w (.saturating op rhs) =
            perform (Interface.integer f) w (.bound .least)) ∧
        (f.max < op.exact w.value.toInt (rhs.contribution w.value).toInt →
          perform (Interface.integer f) w (.saturating op rhs) =
            perform (Interface.integer f) w (.bound .greatest))) := by
  obtain ⟨name, named⟩ := Option.isSome_iff_exists.mp named
  refine ⟨operate_answers_or_stops named w op rhs, checked_value_iff named w op rhs,
    checked_absent_iff named w op rhs, fun kind => ?_⟩
  have plain : ¬ op.Divides := by
    rcases kind with rfl | rfl | rfl <;> decide
  exact ⟨⟨_, perform_saturating named w plain rhs⟩, fun _ => saturating_of_operate named plain,
    saturating_below named plain, saturating_above named plain⟩

/-- The square of the least number is beyond the greatest one. -/
theorem arithmetics_agree_least :
    Catalogue.meterTag.name?.isSome = true ∧
      perform (Interface.integer .int32)
          (⟨FixedInt.least .int32⟩ : Wrapped Catalogue.meterTag _) (.checked .mul .itself) =
        answer .absent ⟨FixedInt.least .int32⟩ ∧
      perform (Interface.integer .int32)
          (⟨FixedInt.least .int32⟩ : Wrapped Catalogue.meterTag _) (.saturating .mul .itself) =
        perform (Interface.integer .int32) ⟨FixedInt.least .int32⟩ (.bound .greatest) := by
  have named : Catalogue.meterTag.name?.isSome = true := by decide
  obtain ⟨-, -, absent, saturates⟩ := arithmetics_agree .int32 Catalogue.meterTag named
    ⟨FixedInt.least .int32⟩ .mul .itself
  exact ⟨named, absent.mpr ⟨.overflow .mul, rfl⟩,
    (saturates (.inr (.inr rfl))).2.2.2 (by decide)⟩

end Wrapped

end Nominal
