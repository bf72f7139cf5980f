import Nominal.Proofs.Capability
import Nominal.Proofs.Reversal
import Nominal.Proofs.Spelling

/-! The ways to take one step. A wrapper can be moved by methods of its own, by the moves of
the wrapper and of the value in it, by a chain of one move, and by the operators with a one
on the right, as a wrapper or as a bare value. All of them do the same. -/

namespace Nominal

variable {V : Type} {I : Interface V} {A : Arithmetic V}

inductive Direction.Form (one : V) (d : Direction) : Step V → Prop where
  | move (moment : Moment) : Form one d (.move d moment)
  | step : Form one d (.step d)
  | bareStep : Form one d (.bareStep d)
  | chain : Form one d (.chain [d])
  | operate (rhs : Operand V) (unit : rhs = .wrapped one ∨ rhs = .bare one) :
    Form one d (.operate d.operator rhs)
  | compound (rhs : Operand V) (unit : rhs = .wrapped one ∨ rhs = .bare one) :
    Form one d (.compound d.operator rhs)

structure Arithmetic.Steps (A : Arithmetic V) : Prop where
  undoes : A.Undoes
  overflows : ∀ (d : Direction) (v : V) (fault : Fault),
    A.apply d.operator v A.one = .error fault → fault = .overflow d.operator

namespace Arithmetic.Steps

theorem plain (f : IntFormat) : (Arithmetic.plain f).Steps := by
  have isPlain := IsPlain.ofFormat f
  refine ⟨isPlain.undoes, fun d v fault stopped => ?_⟩
  by_cases fits : f.InRange (d.operator.exact v.toInt (Arithmetic.plain f).one.toInt)
  · obtain ⟨next, made, -⟩ := isPlain.exists_apply d.not_divides fits
    rw [made] at stopped
    cases stopped
  · rw [isPlain.apply_of_not_inRange d.not_divides fits] at stopped
    cases stopped
    rfl

theorem wrapping (f : IntFormat) : (Arithmetic.wrapping f).Steps := by
  refine ⟨undoes_wrapping f, fun d v fault stopped => ?_⟩
  rw [Wrapped.wrapping_move d (Int.ModEq.refl v.toInt)] at stopped
  cases stopped

theorem wrap (steps : A.Steps) (tag : Tag) : (A.wrap tag).Steps := by
  constructor
  · intro d a b c made
    cases applied : A.apply d.operator a.value b.value with
    | ok v =>
      simp only [Arithmetic.wrap, Wrapped.combine, applied] at made
      cases Except.ok.inj made
      simp only [Arithmetic.wrap, Wrapped.combine, steps.undoes _ _ _ _ applied]
      rfl
    | error fault =>
      simp only [Arithmetic.wrap, Wrapped.combine, applied] at made
      cases made
  · intro d w fault stopped
    cases applied : A.apply d.operator w.value A.one with
    | ok v =>
      simp only [Arithmetic.wrap, Wrapped.combine, applied] at stopped
      cases stopped
    | error fault' =>
      simp only [Arithmetic.wrap, Wrapped.combine, applied] at stopped
      cases stopped
      exact steps.overflows d w.value fault applied

end Arithmetic.Steps

theorem Ty.exists_arithmetic (t : Ty) (steps : t.interface.has .step = true)
    (whole : t.floating = false) : ∃ A, t.interface.Computes A ∧ A.Steps := by
  induction t with
  | int f => exact ⟨.plain f, Interface.computes_integer f, .plain f⟩
  | wrapping f => exact ⟨.wrapping f, Interface.computes_wrapping f, .wrapping f⟩
  | float f => cases whole
  | wrapped tag inner ih =>
    have both : (tag.name?.isSome && inner.interface.has .step) = true :=
      (Interface.has_wrap inner.interface tag .step).symm.trans steps
    obtain ⟨named, has⟩ := Bool.and_eq_true_iff.mp both
    obtain ⟨A, computes, moves⟩ := ih has whole
    exact ⟨A.wrap tag, computes.wrap named, moves.wrap tag⟩
  | _ => cases steps

namespace Wrapped

variable {tag : Tag} {name : Text}

theorem contribution_of_unit {one : V} {rhs : Operand V}
    (unit : rhs = .wrapped one ∨ rhs = .bare one) (v : V) : rhs.contribution v = one := by
  rcases unit with rfl | rfl <;> rfl

theorem perform_form_of_ok (computes : I.Computes A) (named : tag.name? = some name)
    {d : Direction} {s : Step V} (form : d.Form A.one s) {w : Wrapped tag V} {v : V}
    (made : A.apply d.operator w.value A.one = .ok v) : ∃ a, perform I w s = answer a ⟨v⟩ := by
  cases form with
  | move moment =>
    rw [computes.perform_move named, made]
    exact ⟨_, rfl⟩
  | step =>
    rw [computes.perform_step named, made]
    exact ⟨_, rfl⟩
  | bareStep =>
    rw [computes.perform_bareStep named, made]
    exact ⟨_, rfl⟩
  | chain =>
    rw [computes.perform_chain named, walk, made]
    exact ⟨_, rfl⟩
  | operate rhs unit =>
    rw [computes.perform_operate named, contribution_of_unit unit, made]
    exact ⟨_, rfl⟩
  | compound rhs unit =>
    rw [computes.perform_compound named, contribution_of_unit unit, made]
    exact ⟨_, rfl⟩

theorem perform_form_of_error (computes : I.Computes A) (named : tag.name? = some name)
    {d : Direction} {s : Step V} (form : d.Form A.one s) {w : Wrapped tag V} {fault : Fault}
    (stopped : A.apply d.operator w.value A.one = .error fault) :
    perform I w s = (.fault fault, w) := by
  cases form with
  | move moment => rw [computes.perform_move named, stopped]
  | step =>
    rw [computes.perform_step named, stopped]
    rfl
  | bareStep =>
    rw [computes.perform_bareStep named, stopped]
    rfl
  | chain =>
    rw [computes.perform_chain named, walk, stopped]
    rfl
  | operate rhs unit =>
    rw [computes.perform_operate named, contribution_of_unit unit, stopped]
    rfl
  | compound rhs unit =>
    rw [computes.perform_compound named, contribution_of_unit unit, stopped]
    rfl

structure StepsAlike (tag : Tag) (I : Interface V) (one : V)
    (move : Direction → V → Except Fault V) : Prop where
  moves : I.step? = some move
  unit : ∀ w : Wrapped tag V, perform I w (.landmark .one) = answer .nothing ⟨one⟩
  agree : ∀ (d : Direction) (w : Wrapped tag V), ∀ s s', d.Form one s → d.Form one s' →
    (perform I w s).2 = (perform I w s').2 ∧
      ∀ fault, (perform I w s).1 = .fault fault ↔ (perform I w s').1 = .fault fault
  done : ∀ (d : Direction) (w : Wrapped tag V) (v : V), move d w.value = .ok v →
    ∀ s, d.Form one s → ∃ a, perform I w s = answer a ⟨v⟩
  stopped : ∀ (d : Direction) (w : Wrapped tag V) (fault : Fault), move d w.value = .error fault →
    fault = .overflow d.operator ∧ ∀ s, d.Form one s → perform I w s = (.fault fault, w)
  answersAfter : ∀ (d : Direction) (w : Wrapped tag V) (v : V), move d w.value = .ok v →
    perform I w (.move d .after) = answer (.value v) ⟨v⟩
  answersBefore : ∀ (d : Direction) (w : Wrapped tag V) (v : V), move d w.value = .ok v →
    perform I w (.move d .before) = answer (.value w.value) ⟨v⟩
  restores : ∀ (d : Direction) (w : Wrapped tag V) (v : V), move d w.value = .ok v →
    ∀ s, d.opposite.Form one s → ∃ a, perform I (⟨v⟩ : Wrapped tag V) s = answer a w

theorem stepsAlike (computes : I.Computes A) (steps : A.Steps) (named : tag.name?.isSome = true) :
    StepsAlike tag I A.one fun d v => A.apply d.operator v A.one := by
  obtain ⟨name, named⟩ := Option.isSome_iff_exists.mp named
  refine ⟨computes.step?, ?_, ?_, ?_, ?_, ?_, ?_, ?_⟩
  · intro w
    obtain ⟨test, one⟩ := computes.one
    simp only [perform, landmark?, Interface.wrap, one, Tag.forward_named named]
    rfl
  · intro d w s s' form form'
    cases moved : A.apply d.operator w.value A.one with
    | ok v =>
      obtain ⟨a, here⟩ := perform_form_of_ok computes named form moved
      obtain ⟨a', there⟩ := perform_form_of_ok computes named form' moved
      rw [here, there]
      refine ⟨rfl, fun fault => ?_⟩
      simp [answer]
    | error fault =>
      rw [perform_form_of_error computes named form moved,
        perform_form_of_error computes named form' moved]
      exact ⟨rfl, fun _ => Iff.rfl⟩
  · intro d w v made s form
    exact perform_form_of_ok computes named form made
  · intro d w fault stopped
    exact ⟨steps.overflows d w.value fault stopped,
      fun s form => perform_form_of_error computes named form stopped⟩
  · intro d w v made
    rw [computes.perform_move named, made]
  · intro d w v made
    rw [computes.perform_move named, made]
  · intro d w v made s form
    have home := steps.undoes d w.value A.one v made
    exact perform_form_of_ok computes named form home

/-- On a wrapper with moves, over no floating-point numbers, all forms of a step do what the
move of the wrapped value does: they leave the same state, or they stop with the same fault
and leave the state alone. Any step back leads home. -/
theorem steps_alike (tag : Tag) (inner : Ty)
    (moves : Capability.step ∈ (Ty.wrapped tag inner).capabilities)
    (whole : inner.floating = false) :
    ∃ one move, StepsAlike tag inner.interface one move := by
  obtain ⟨named, has⟩ := (Interface.mem_capabilities_wrapped_iff tag inner rfl).mp moves
  obtain ⟨A, computes, steps⟩ := inner.exists_arithmetic has whole
  exact ⟨A.one, _, stepsAlike computes steps named⟩

example : (Catalogue.all.filter fun entry => entry.2.interface.has .step && !entry.2.floating).map
      Prod.fst =
    ["Meter", "Yard", "Tiny", "Short", "Long", "Huge", "Offset", "Speed", "Port", "NaturalInt",
      "Ticks", "Vast", "Size", "Anon", "Odd", "Plain", "Ring", "Wheel", "Outer",
      "LocalTagged"] := by decide

theorem steps_alike_outer :
    let w : Wrapped Catalogue.outerTag Catalogue.meter.Carrier := ⟨⟨FixedInt.greatest .int32⟩⟩
    let below : Catalogue.meter.Carrier := ⟨FixedInt.clamp .int32 2147483646⟩
    let one : Catalogue.meter.Carrier := ⟨FixedInt.one .int32⟩
    Capability.step ∈ Catalogue.outer.capabilities ∧ Catalogue.meter.floating = false ∧
      perform Catalogue.meter.interface w (.move .forward .before) = (.fault (.overflow .add), w) ∧
      perform Catalogue.meter.interface w (.compound .add (.bare one)) =
        (.fault (.overflow .add), w) ∧
      perform Catalogue.meter.interface w (.move .backward .before) =
        answer (.value w.value) ⟨below⟩ ∧
      ∃ a, perform Catalogue.meter.interface ⟨below⟩ (.chain [.forward]) = answer a w := by
  intro w below one
  have moves : Capability.step ∈ Catalogue.outer.capabilities := by decide
  obtain ⟨one', move, alike⟩ := steps_alike Catalogue.outerTag Catalogue.meter moves rfl
  obtain rfl : _ = move := Option.some.inj alike.moves
  obtain rfl : one = one' := congrArg (fun outcome => outcome.2.value) (alike.unit w)
  have up := (alike.stopped .forward w (.overflow .add) rfl).2
  refine ⟨moves, rfl, up _ (.move .before), up _ (.compound _ (.inr rfl)), ?_, ?_⟩
  · exact alike.answersBefore .backward w below rfl
  · exact alike.restores .backward w below rfl _ .chain

end Wrapped

end Nominal
