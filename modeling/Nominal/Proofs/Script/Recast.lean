import Nominal.Catalogue
import Nominal.Proofs.Script.Run

/-! One step in several writings. A right operand can be given in each of its shapes as
long as it contributes the same value, and an operator can be written in its plain or in
its compound form. Which of the writings a script uses cannot be seen in its transcript,
for any type that can be wrapped and in any state. -/

namespace Nominal

variable {V : Type}

/-- Steps that differ in the shape of the right operand and in the form of the operator at
most. An operand that is the state itself counts for the state in which the step is made. -/
inductive Step.Recast (state : V) : Step V → Step V → Prop
  | same (s : Step V) : Recast state s s
  | operate {op : Operator} {rhs rhs' : Operand V}
      (equal : rhs.contribution state = rhs'.contribution state) :
      Recast state (.operate op rhs) (.operate op rhs')
  | compound {op : Operator} {rhs rhs' : Operand V}
      (equal : rhs.contribution state = rhs'.contribution state) :
      Recast state (.compound op rhs) (.compound op rhs')
  | toCompound {op : Operator} {rhs rhs' : Operand V}
      (equal : rhs.contribution state = rhs'.contribution state) :
      Recast state (.operate op rhs) (.compound op rhs')
  | toPlain {op : Operator} {rhs rhs' : Operand V}
      (equal : rhs.contribution state = rhs'.contribution state) :
      Recast state (.compound op rhs) (.operate op rhs')
  | relate {r : Relation} {rhs rhs' : Operand V}
      (equal : rhs.contribution state = rhs'.contribution state) :
      Recast state (.relate r rhs) (.relate r rhs')
  | partialCompare {rhs rhs' : Operand V}
      (equal : rhs.contribution state = rhs'.contribution state) :
      Recast state (.partialCompare rhs) (.partialCompare rhs')
  | checked {op : Operator} {rhs rhs' : Operand V}
      (equal : rhs.contribution state = rhs'.contribution state) :
      Recast state (.checked op rhs) (.checked op rhs')
  | saturating {op : Operator} {rhs rhs' : Operand V}
      (equal : rhs.contribution state = rhs'.contribution state) :
      Recast state (.saturating op rhs) (.saturating op rhs')

theorem Ty.assign?_eq_operate? (t : Ty) (op : Operator) :
    t.interface.assign? op = t.interface.operate? op := by
  induction t with
  | wrapped tag inner ih =>
    show tag.forward (inner.interface.assign? op) _ = tag.forward (inner.interface.operate? op) _
    rw [ih]
  | _ => rfl

namespace Wrapped

variable {tag : Tag} {I : Interface V} {w : Wrapped tag V}

inductive Recast (I : Interface V) : Wrapped tag V → List (Step V) → List (Step V) → Prop
  | nil (w : Wrapped tag V) : Recast I w [] []
  | cons {w : Wrapped tag V} {s s' : Step V} {rest rest' : List (Step V)}
      (here : s.Recast w.value s') (later : Recast I (perform I w s).2 rest rest') :
      Recast I w (s :: rest) (s' :: rest')

section Operands

variable {rhs rhs' : Operand V} (equal : rhs.contribution w.value = rhs'.contribution w.value)
include equal

theorem operate_congr (op : Operator) : operate I op rhs w = operate I op rhs' w := by
  rw [operate_eq, operate_eq, equal]

theorem compound_congr (op : Operator) : compound I op rhs w = compound I op rhs' w := by
  rw [compound_eq, compound_eq, equal]

theorem equal?_congr : equal? I rhs w = equal? I rhs' w := by
  rw [equal?_eq, equal?_eq, equal]

theorem partialCompare?_congr : partialCompare? I rhs w = partialCompare? I rhs' w := by
  rw [partialCompare?_eq, partialCompare?_eq, equal]

end Operands

theorem compound_eq_operate {op : Operator} (forms : I.assign? op = I.operate? op)
    (rhs : Operand V) (w : Wrapped tag V) : compound I op rhs w = operate I op rhs w := by
  rw [operate_eq, compound_eq, forms]

theorem perform_recast (forms : ∀ op, I.assign? op = I.operate? op) {s s' : Step V}
    (recast : s.Recast w.value s') : perform I w s = perform I w s' := by
  cases recast with
  | same s => rfl
  | operate equal => exact operate_congr equal _
  | compound equal => exact compound_congr equal _
  | toCompound equal => exact (operate_congr equal _).trans (compound_eq_operate (forms _) _ w).symm
  | toPlain equal => exact (compound_congr equal _).trans (compound_eq_operate (forms _) _ w)
  | relate equal => simp only [perform, equal?_congr equal, partialCompare?_congr equal]
  | partialCompare equal => simp only [perform, partialCompare?_congr equal]
  | checked equal => simp only [perform, checked, equal]
  | saturating equal => simp only [perform, saturating, equal]

/-- A script and a recast of it leave the same transcript and the same last state. -/
theorem run_recast (tag : Tag) (inner : Ty) (w : Wrapped tag inner.Carrier)
    (script script' : List (Step inner.Carrier)) (recast : Recast inner.interface w script script') :
    run inner.interface w script = run inner.interface w script' ∧
      final inner.interface w script = final inner.interface w script' := by
  induction recast with
  | nil w => exact ⟨rfl, rfl⟩
  | cons here later ih =>
    have step := perform_recast inner.assign?_eq_operate? here
    obtain ⟨transcript, last⟩ := ih
    simp only [run, final]
    rw [← step, transcript, last]
    exact ⟨rfl, rfl⟩

/-- A wrapper in a wrapper. The state counts as an operand after the first step was refused
and the second was made. -/
theorem run_recast_least :
    let w : Wrapped Catalogue.outerTag (Wrapped Catalogue.meterTag (FixedInt .int32)) :=
      ⟨⟨FixedInt.least .int32⟩⟩
    let unit : Wrapped Catalogue.meterTag (FixedInt .int32) := ⟨FixedInt.one .int32⟩
    let next : Wrapped Catalogue.meterTag (FixedInt .int32) := ⟨FixedInt.clamp .int32 (-2147483647)⟩
    let script := [Step.operate .sub (.bare unit), .compound .add (.wrapped unit),
      .relate .eq (.bare next), .operate .div (.wrapped next)]
    let script' := [Step.compound .sub (.wrapped unit), .operate .add (.bare unit),
      .relate .eq .itself, .compound .div .itself]
    Recast Catalogue.meter.interface w script script' ∧
      run Catalogue.meter.interface w script = run Catalogue.meter.interface w script' ∧
      (run Catalogue.meter.interface w script').map (fun e => e.state.value.toInt) =
        [-2147483648, -2147483647, -2147483647, 1] := by
  intro w unit next script script'
  have recast : Recast Catalogue.meter.interface w script script' :=
    .cons (.toCompound rfl) (.cons (.toPlain rfl) (.cons (.relate rfl)
      (.cons (.toCompound rfl) (.nil _))))
  exact ⟨recast, (run_recast Catalogue.outerTag Catalogue.meter w script script' recast).1, rfl⟩

end Wrapped

end Nominal
