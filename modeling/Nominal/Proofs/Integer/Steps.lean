import Nominal.Proofs.Arithmetic

/-! What the steps of a wrapper over a plain integer type come down to. All that a
named tag adds to the arithmetic of the integers is the wrapper around the result. The
rejection of a text is the one place where the name itself appears. -/

namespace Nominal.Wrapped

variable {tag : Tag} {f : IntFormat} {name : Text}

theorem perform_operate (named : tag.name? = some name) (w : Wrapped tag (FixedInt f))
    (op : Operator) (rhs : Operand (FixedInt f)) :
    perform (Interface.integer f) w (.operate op rhs) =
      settle w (some ((w.value.apply op (rhs.contribution w.value)).map Wrapped.mk)) :=
  (Interface.computes_integer f).perform_operate named w op rhs

theorem perform_compound (named : tag.name? = some name) (w : Wrapped tag (FixedInt f))
    (op : Operator) (rhs : Operand (FixedInt f)) :
    perform (Interface.integer f) w (.compound op rhs) =
      settle w (some ((w.value.apply op (rhs.contribution w.value)).map Wrapped.mk)) :=
  (Interface.computes_integer f).perform_compound named w op rhs

theorem perform_negate (named : tag.name? = some name) (w : Wrapped tag (FixedInt f)) :
    perform (Interface.integer f) w .negate =
      settle w (if f.signed then some (w.value.neg.map Wrapped.mk) else none) := by
  simp only [perform, Interface.wrap, Interface.integer]
  cases f.signed with
  | true =>
    simp only [if_true, Tag.forward_named named]
    rfl
  | false =>
    simp only [Tag.forward, named]
    rfl

theorem perform_checked (named : tag.name? = some name) (w : Wrapped tag (FixedInt f))
    (op : Operator) (rhs : Operand (FixedInt f)) :
    perform (Interface.integer f) w (.checked op rhs) =
      match w.value.checked op (rhs.contribution w.value) with
      | some x => answer (.value x) ⟨x⟩
      | none => answer .absent w := by
  simp only [perform, checked, Interface.checkedMethod?, Interface.integer,
    Tag.forward_named named]
  cases w.value.checked op (rhs.contribution w.value) <;> rfl

theorem perform_saturating (named : tag.name? = some name) (w : Wrapped tag (FixedInt f))
    {op : Operator} (plain : ¬ op.Divides) (rhs : Operand (FixedInt f)) :
    perform (Interface.integer f) w (.saturating op rhs) =
      answer .nothing ⟨w.value.saturating op (rhs.contribution w.value)⟩ := by
  have has : Interface.hasSaturating op = true := by
    cases op with
    | div => exact absurd (.inl rfl) plain
    | rem => exact absurd (.inr rfl) plain
    | _ => rfl
  simp only [perform, saturating, Interface.saturatingMethod?, Interface.integer, has, if_true,
    Tag.forward_named named]
  rfl

theorem perform_bound (named : tag.name? = some name) (w : Wrapped tag (FixedInt f)) (b : Bound) :
    perform (Interface.integer f) w (.bound b) =
      answer .nothing ⟨bound (Interface.integerBounds f) b⟩ := by
  simp only [perform, Interface.wrap, Interface.integer, Tag.forward_named named]
  cases b <;> rfl

theorem perform_parse (named : tag.name? = some name) (w : Wrapped tag (FixedInt f)) (s : Text) :
    perform (Interface.integer f) w (.parse s) =
      match FixedInt.read f s with
      | .ok x => answer .accepted ⟨x⟩
      | .error flaw => answer (.rejected (.named name s (.integer flaw))) w := by
  rw [perform_parse_of_named named]
  simp only [Interface.integer]
  cases FixedInt.read f s <;> rfl

end Nominal.Wrapped
