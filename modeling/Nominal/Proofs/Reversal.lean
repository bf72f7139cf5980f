import Nominal.Proofs.Integer.Plain
import Nominal.Proofs.Integer.Residue
import Nominal.Proofs.Script.Failure

/-! Running back. A shift is a step that adds or takes away a given value, or moves by
units. Its inverse takes the same value the other way. When a script of shifts runs
without a fault, the inverse script runs from its last state through the same states
to the first: each state of the way back was a state of the way there, so nothing can
leave the range. A wrapping arithmetic has no faults, so there every script runs back. -/

namespace Nominal

variable {V : Type} {I : Interface V} {A : Arithmetic V}

/-- The steps up and down. An operand that is the state itself would be lost in the step. -/
inductive Shift (V : Type) where
  | operate (d : Direction) (rhs : Operand V) (given : rhs ≠ .itself)
  | compound (d : Direction) (rhs : Operand V) (given : rhs ≠ .itself)
  | move (d : Direction) (moment : Moment)
  | chain (moves : List Direction)

namespace Shift

def toStep : Shift V → Step V
  | .operate d rhs _ => .operate d.operator rhs
  | .compound d rhs _ => .compound d.operator rhs
  | .move d moment => .move d moment
  | .chain moves => .chain moves

def inverse : Shift V → Shift V
  | .operate d rhs given => .operate d.opposite rhs given
  | .compound d rhs given => .compound d.opposite rhs given
  | .move d moment => .move d.opposite moment
  | .chain moves => .chain (moves.map Direction.opposite).reverse

def back (script : List (Shift V)) : List (Shift V) := (script.map inverse).reverse

theorem back_cons (s : Shift V) (rest : List (Shift V)) :
    back (s :: rest) = back rest ++ [s.inverse] := by
  simp only [back, List.map_cons, List.reverse_cons]

end Shift

def Arithmetic.Undoes (A : Arithmetic V) : Prop :=
  ∀ (d : Direction) (a b c : V),
    A.apply d.operator a b = .ok c → A.apply d.opposite.operator c b = .ok a

theorem Direction.exact_opposite (d : Direction) (a b : Int) :
    d.opposite.operator.exact (d.operator.exact a b) b = a := by
  cases d with
  | forward => exact Int.add_sub_cancel a b
  | backward => exact Int.sub_add_cancel a b

theorem Arithmetic.IsPlain.undoes {f : IntFormat} {number : V → Int} (plain : A.IsPlain f number) :
    A.Undoes := by
  intro d a b c made
  have there := plain.number_of_apply d.not_divides made
  have home : d.opposite.operator.exact (number c) (number b) = number a := by
    rw [there, d.exact_opposite]
  have fits : f.InRange (d.opposite.operator.exact (number c) (number b)) := by
    rw [home]
    exact plain.inRange a
  obtain ⟨a', back, same⟩ := plain.exists_apply d.opposite.not_divides fits
  have found : a' = a := plain.injective _ _ (same.trans home)
  rw [back, found]

theorem Arithmetic.undoes_wrapping (f : IntFormat) : (Arithmetic.wrapping f).Undoes := by
  intro d a b c made
  have there : a.wrappingApply d.operator b = .ok c := made
  rw [FixedInt.wrappingApply_of_not_divides d.not_divides] at there
  cases Except.ok.inj there
  have congruent := d.opposite.operator.exact_modEq d.opposite.not_divides
    (FixedInt.reduce_modEq f (d.operator.exact a.toInt b.toInt)) (Int.ModEq.refl b.toInt)
  rw [d.exact_opposite] at congruent
  calc (FixedInt.reduce f (d.operator.exact a.toInt b.toInt)).wrappingApply d.opposite.operator b
    _ = .ok (FixedInt.reduce f (d.opposite.operator.exact
          (FixedInt.reduce f (d.operator.exact a.toInt b.toInt)).toInt b.toInt)) :=
      FixedInt.wrappingApply_of_not_divides d.opposite.not_divides _ _
    _ = .ok (FixedInt.reduce f a.toInt) := by rw [FixedInt.reduce_eq_of_modEq congruent]
    _ = .ok a := by rw [← (FixedInt.modEq_iff_eq_reduce a a.toInt).mp (Int.ModEq.refl _)]

namespace Wrapped

variable {tag : Tag} {name : Text}

theorem apply_of_settle {w next : Wrapped tag V} {x : Except Fault V} {a : Answer V}
    (made : settle w (some (x.map Wrapped.mk)) = answer a next) : x = .ok next.value := by
  cases x with
  | ok v =>
    cases (Prod.mk.inj made).2
    rfl
  | error fault => cases (Prod.mk.inj made).1

theorem contribution_of_given {rhs : Operand V} (given : rhs ≠ .itself) (v w : V) :
    rhs.contribution v = rhs.contribution w := by
  cases rhs with
  | wrapped u => rfl
  | bare u => rfl
  | itself => exact absurd rfl given

theorem walk_append {move : Direction → Wrapped tag V → Except Fault (Wrapped tag V)}
    {before : List Direction} {w next : Wrapped tag V} {a : Answer V}
    (made : walk move before w = answer a next) (after : List Direction) :
    walk move (before ++ after) w = walk move after next := by
  induction before generalizing w with
  | nil =>
    cases (Prod.mk.inj made).2
    rfl
  | cons d rest ih =>
    cases moved : move d w with
    | ok mid =>
      simp only [walk, moved] at made
      simp only [List.cons_append, walk, moved]
      exact ih made
    | error fault =>
      simp only [walk, moved] at made
      cases (Prod.mk.inj made).1

theorem walk_back {move : Direction → Wrapped tag V → Except Fault (Wrapped tag V)}
    (undoes : ∀ d w next, move d w = .ok next → move d.opposite next = .ok w)
    {moves : List Direction} {w next : Wrapped tag V} {a : Answer V}
    (made : walk move moves w = answer a next) :
    walk move (moves.map Direction.opposite).reverse next = answer (.value w.value) w := by
  induction moves generalizing w with
  | nil =>
    cases (Prod.mk.inj made).2
    rfl
  | cons d rest ih =>
    cases moved : move d w with
    | ok mid =>
      simp only [walk, moved] at made
      have last := undoes d w mid moved
      rw [List.map_cons, List.reverse_cons, walk_append (ih made)]
      simp only [walk, last]
    | error fault =>
      simp only [walk, moved] at made
      cases (Prod.mk.inj made).1

theorem perform_inverse (computes : I.Computes A) (undoes : A.Undoes)
    (named : tag.name? = some name) {w next : Wrapped tag V} {a : Answer V} (s : Shift V)
    (made : perform I w s.toStep = answer a next) :
    ∃ a', perform I next s.inverse.toStep = answer a' w := by
  cases s with
  | operate d rhs given =>
    rw [Shift.toStep, computes.perform_operate named] at made
    have there := apply_of_settle made
    rw [contribution_of_given given w.value next.value] at there
    refine ⟨.nothing, ?_⟩
    rw [Shift.inverse, Shift.toStep, computes.perform_operate named, undoes _ _ _ _ there]
    rfl
  | compound d rhs given =>
    rw [Shift.toStep, computes.perform_compound named] at made
    have there := apply_of_settle made
    rw [contribution_of_given given w.value next.value] at there
    refine ⟨.nothing, ?_⟩
    rw [Shift.inverse, Shift.toStep, computes.perform_compound named, undoes _ _ _ _ there]
    rfl
  | move d moment =>
    rw [Shift.toStep, computes.perform_move named] at made
    cases moved : A.apply d.operator w.value A.one with
    | ok v =>
      rw [moved] at made
      cases (Prod.mk.inj made).2
      rw [Shift.inverse, Shift.toStep, computes.perform_move named, undoes _ _ _ _ moved]
      exact ⟨_, rfl⟩
    | error fault =>
      rw [moved] at made
      cases (Prod.mk.inj made).1
  | chain moves =>
    rw [Shift.toStep, computes.perform_chain named] at made
    rw [Shift.inverse, Shift.toStep, computes.perform_chain named]
    refine ⟨_, walk_back ?_ made⟩
    -- What is left is that every single move can be taken back.
    intro d w next moved
    cases applied : A.apply d.operator w.value A.one with
    | ok v =>
      rw [applied] at moved
      cases Except.ok.inj moved
      rw [undoes _ _ _ _ applied]
      rfl
    | error fault =>
      rw [applied] at moved
      cases moved

theorem offers_shift (computes : I.Computes A) (named : tag.name? = some name) (s : Shift V) :
    offers tag I s.toStep = true := by
  have outer : (I.wrap tag).Computes (A.wrap tag) := computes.wrap (by rw [named]; rfl)
  have moves : (I.moveMethod? tag).isSome = true := by
    rw [Interface.moveMethod?, computes.step?, Tag.forward_named named]
    rfl
  cases s with
  | operate d rhs given => simp only [Shift.toStep, offers, outer.operate, Option.isSome_some]
  | compound d rhs given => simp only [Shift.toStep, offers, outer.assign, Option.isSome_some]
  | move d moment =>
    cases moment with
    | before => simp only [Shift.toStep, offers, moves, outer.clonable, Bool.and_self]
    | after => exact moves
  | chain directions => exact moves

theorem answer_of_ne_fault (computes : I.Computes A) (named : tag.name? = some name)
    (w : Wrapped tag V) (s : Shift V)
    (calm : ∀ fault, (perform I w s.toStep).1 ≠ .fault fault) :
    ∃ a next, perform I w s.toStep = answer a next := by
  have supported : (perform I w s.toStep).1 ≠ .unsupported := by
    intro refused
    have lacks := (perform_unsupported_iff I w s.toStep).mp refused
    rw [offers_shift computes named s] at lacks
    cases lacks
  cases outcome : perform I w s.toStep with
  | mk reply next =>
    rw [outcome] at calm supported
    cases reply with
    | done a => exact ⟨a, next, rfl⟩
    | fault fault => exact absurd rfl (calm fault)
    | unsupported => exact absurd rfl supported

/-- From the last state of a script the inverse script is done in full, and it leaves the
states of the script from the last to the first. -/
structure RunsBack (I : Interface V) (w : Wrapped tag V) (script : List (Shift V)) : Prop where
  done : ∀ e ∈ run I (final I w (script.map Shift.toStep)) ((Shift.back script).map Shift.toStep),
    ∃ a, e.reply = .done a
  states : (final I w (script.map Shift.toStep)).value ::
      (run I (final I w (script.map Shift.toStep)) ((Shift.back script).map Shift.toStep)).map
        Entry.state =
    (w.value :: (run I w (script.map Shift.toStep)).map Entry.state).reverse
  ends : final I (final I w (script.map Shift.toStep)) ((Shift.back script).map Shift.toStep) = w

theorem RunsBack.cons {w next : Wrapped tag V} {s : Shift V} {rest : List (Shift V)}
    {a a' : Answer V} (there : perform I w s.toStep = answer a next)
    (home : perform I next s.inverse.toStep = answer a' w) (later : RunsBack I next rest) :
    RunsBack I w (s :: rest) := by
  have last : final I w ((s :: rest).map Shift.toStep) = final I next (rest.map Shift.toStep) := by
    simp only [List.map_cons, final, there, answer]
  constructor
  · intro e he
    rw [last, Shift.back_cons, List.map_append, run_append, later.ends] at he
    rcases List.mem_append.mp he with before | here
    · exact later.done e before
    · simp only [List.map_cons, List.map_nil, run, home, answer, List.mem_singleton] at here
      subst here
      exact ⟨a', rfl⟩
  · rw [last, Shift.back_cons, List.map_append, run_append, later.ends, List.map_append,
      ← List.cons_append, later.states]
    simp only [List.map_cons, List.map_nil, run, there, home, answer, List.reverse_cons]
  · rw [last, Shift.back_cons, List.map_append, final_append, later.ends]
    simp only [List.map_cons, List.map_nil, final, home, answer]

theorem runsBack (computes : I.Computes A) (undoes : A.Undoes) (named : tag.name? = some name)
    (w : Wrapped tag V) (script : List (Shift V))
    (calm : ∀ e ∈ run I w (script.map Shift.toStep), ∀ fault, e.reply ≠ .fault fault) :
    RunsBack I w script := by
  induction script generalizing w with
  | nil =>
    constructor
    · intro e he
      cases he
    · rfl
    · rfl
  | cons s rest ih =>
    obtain ⟨a, next, there⟩ :=
      answer_of_ne_fault computes named w s (calm _ List.mem_cons_self)
    obtain ⟨a', home⟩ := perform_inverse computes undoes named s there
    refine .cons there home (ih next fun e he => calm e ?_)
    simp only [List.map_cons, run, there, answer]
    exact List.mem_cons_of_mem _ he

variable {f : IntFormat}

def ringStep : Shift V → RingStep V
  | .operate d rhs _ => .operate d.operator rhs d.not_divides
  | .compound d rhs _ => .compound d.operator rhs d.not_divides
  | .move d moment => .move d moment
  | .chain moves => .chain moves

theorem map_ringStep (script : List (Shift V)) :
    (script.map ringStep).map RingStep.toStep = script.map Shift.toStep := by
  rw [List.map_map]
  apply List.map_congr_left
  intro s _
  cases s <;> rfl

theorem wrapping_calm (named : tag.name? = some name) (w : Wrapped tag (FixedInt f))
    (script : List (Shift (FixedInt f))) :
    ∀ e ∈ run (Interface.wrapping f) w (script.map Shift.toStep), ∀ fault, e.reply ≠ .fault fault := by
  obtain ⟨-, replies⟩ := run_ringSteps named (Int.ModEq.refl w.value.toInt) (script.map ringStep)
  rw [map_ringStep] at replies
  intro e he fault same
  obtain ⟨a, done⟩ := replies e he
  rw [same] at done
  cases done

/-- A script of shifts that runs without a fault on a wrapper over a plain integer type, or on
wrappers inside wrappers, runs back. On a wrapper over a type that wraps around every script
of shifts does. -/
theorem shifts_run_back (f : IntFormat) (tag : Tag) (named : tag.name?.isSome = true) :
    (∀ tags : List Tag, (∀ t ∈ tags, t.name?.isSome = true) →
      ∀ (w : Wrapped tag (Nest tags (FixedInt f))) (script : List (Shift (Nest tags (FixedInt f)))),
        (∀ e ∈ run ((Interface.integer f).nest tags) w (script.map Shift.toStep),
          ∀ fault, e.reply ≠ .fault fault) →
        RunsBack ((Interface.integer f).nest tags) w script) ∧
      ∀ (w : Wrapped tag (FixedInt f)) (script : List (Shift (FixedInt f))),
        RunsBack (Interface.wrapping f) w script := by
  obtain ⟨name, named⟩ := Option.isSome_iff_exists.mp named
  constructor
  · intro tags inner w script calm
    have computes := (Interface.computes_integer f).nest inner
    have undoes := (Arithmetic.IsPlain.nest f tags).undoes
    exact runsBack computes undoes named w script calm
  · intro w script
    have computes := Interface.computes_wrapping f
    exact runsBack computes (Arithmetic.undoes_wrapping f) named w script
      (wrapping_calm named w script)

theorem shifts_run_back_greatest :
    let number (n : Int) : Wrapped Catalogue.meterTag (FixedInt .int32) := ⟨FixedInt.clamp .int32 n⟩
    let w : Wrapped Catalogue.outerTag (Wrapped Catalogue.meterTag (FixedInt .int32)) :=
      ⟨number 2147483645⟩
    let last : Wrapped Catalogue.outerTag (Wrapped Catalogue.meterTag (FixedInt .int32)) :=
      ⟨number (-1)⟩
    let script : List (Shift (Wrapped Catalogue.meterTag (FixedInt .int32))) :=
      [.chain [.forward, .forward, .backward], .compound .backward (.bare (number (-1))) (by simp),
        .operate .backward (.wrapped (number 2147483647)) (by simp), .move .backward .before]
    Catalogue.outerTag.name?.isSome = true ∧
      (run Catalogue.meter.interface w (script.map Shift.toStep)).map (fun e => e.state.value.toInt) =
        [2147483646, 2147483647, 0, -1] ∧
      (run Catalogue.meter.interface last ((Shift.back script).map Shift.toStep)).map
          (fun e => e.state.value.toInt) =
        [0, 2147483647, 2147483646, 2147483645] ∧
      final Catalogue.meter.interface last ((Shift.back script).map Shift.toStep) = w := by
  intro number w last script
  obtain ⟨plain, -⟩ := shifts_run_back .int32 Catalogue.outerTag (by decide)
  have calm : ∀ e ∈ run Catalogue.meter.interface w (script.map Shift.toStep),
      ∀ fault, e.reply ≠ .fault fault := by
    intro e he fault same
    have passes : (run Catalogue.meter.interface w (script.map Shift.toStep)).all
        (fun e => !e.reply.fails) = true := rfl
    have kept := List.all_eq_true.mp passes e he
    rw [same] at kept
    cases kept
  have home := plain [Catalogue.meterTag] (by decide) w script calm
  exact ⟨by decide, rfl, rfl, home.ends⟩

end Wrapped

end Nominal
