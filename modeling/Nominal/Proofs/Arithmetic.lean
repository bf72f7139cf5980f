import Nominal.Interface.Number
import Nominal.Proofs.Nest

/-! Arithmetics behind interfaces. An interface computes with an arithmetic when both
forms of every operator do what the arithmetic does and a move goes by its one. What the
arithmetic steps of a wrapper come down to then depends on the arithmetic alone, and
wrapping again takes the arithmetic along to the wrapper. -/

namespace Nominal

variable {V : Type}

structure Arithmetic (V : Type) where
  apply : Operator → V → V → Except Fault V
  zero : V
  one : V

def Direction.operator : Direction → Operator
  | .forward => .add
  | .backward => .sub

structure Interface.Computes (I : Interface V) (A : Arithmetic V) : Prop where
  operate : ∀ op, I.operate? op = some (A.apply op)
  assign : ∀ op, I.assign? op = some (A.apply op)
  zero : ∃ test, I.zero? = some ⟨A.zero, test⟩
  one : ∃ test, I.one? = some ⟨A.one, test⟩
  clonable : I.clonable = true

namespace Arithmetic

def wrap (A : Arithmetic V) (tag : Tag) : Arithmetic (Wrapped tag V) where
  apply op := Wrapped.combine (A.apply op)
  zero := ⟨A.zero⟩
  one := ⟨A.one⟩

def nest (A : Arithmetic V) : (tags : List Tag) → Arithmetic (Nest tags V)
  | [] => A
  | tag :: tags => (A.nest tags).wrap tag

def plain (f : IntFormat) : Arithmetic (FixedInt f) where
  apply := FixedInt.apply
  zero := FixedInt.zero f
  one := FixedInt.one f

def wrapping (f : IntFormat) : Arithmetic (FixedInt f) where
  apply := FixedInt.wrappingApply
  zero := FixedInt.zero f
  one := FixedInt.one f

end Arithmetic

namespace Interface

variable {I : Interface V} {A : Arithmetic V}

theorem computes_integer (f : IntFormat) : (integer f).Computes (.plain f) :=
  ⟨fun _ => rfl, fun _ => rfl, ⟨_, rfl⟩, ⟨_, rfl⟩, rfl⟩

theorem computes_wrapping (f : IntFormat) : (wrapping f).Computes (.wrapping f) :=
  ⟨fun _ => rfl, fun _ => rfl, ⟨_, rfl⟩, ⟨_, rfl⟩, rfl⟩

namespace Computes

theorem wrap (computes : I.Computes A) {tag : Tag} (named : tag.name?.isSome = true) :
    (I.wrap tag).Computes (A.wrap tag) := by
  obtain ⟨name, named⟩ := Option.isSome_iff_exists.mp named
  obtain ⟨isZero, hasZero⟩ := computes.zero
  obtain ⟨isOne, hasOne⟩ := computes.one
  constructor
  · intro op
    simp only [Interface.wrap, computes.operate, Tag.forward_named named]
    rfl
  · intro op
    simp only [Interface.wrap, computes.assign, Tag.forward_named named]
    rfl
  · simp only [Interface.wrap, hasZero, Tag.forward_named named]
    exact ⟨_, rfl⟩
  · simp only [Interface.wrap, hasOne, Tag.forward_named named]
    exact ⟨_, rfl⟩
  · exact computes.clonable

theorem nest (computes : I.Computes A) {tags : List Tag}
    (named : ∀ t ∈ tags, t.name?.isSome = true) : (I.nest tags).Computes (A.nest tags) := by
  induction tags with
  | nil => exact computes
  | cons tag tags ih =>
    have inner := ih fun t ht => named t (List.mem_cons_of_mem _ ht)
    exact inner.wrap (named tag List.mem_cons_self)

theorem step? (computes : I.Computes A) :
    I.step? = some fun d v => A.apply d.operator v A.one := by
  obtain ⟨isOne, hasOne⟩ := computes.one
  simp only [Interface.step?, hasOne, computes.assign]
  congr 1
  funext d v
  cases d <;> rfl

variable {tag : Tag} {name : Text} (computes : I.Computes A) (named : tag.name? = some name)
  (w : Wrapped tag V)
include computes named

theorem perform_operate (op : Operator) (rhs : Operand V) :
    Wrapped.perform I w (.operate op rhs) =
      Wrapped.settle w (some ((A.apply op w.value (rhs.contribution w.value)).map Wrapped.mk)) := by
  simp only [Wrapped.perform, Wrapped.operate_eq, computes.operate, Tag.forward_named named]

theorem perform_compound (op : Operator) (rhs : Operand V) :
    Wrapped.perform I w (.compound op rhs) =
      Wrapped.settle w (some ((A.apply op w.value (rhs.contribution w.value)).map Wrapped.mk)) := by
  simp only [Wrapped.perform, Wrapped.compound_eq, computes.assign, Tag.forward_named named]

theorem perform_bareStep (d : Direction) :
    Wrapped.perform I w (.bareStep d) =
      Wrapped.settle w (some ((A.apply d.operator w.value A.one).map Wrapped.mk)) := by
  simp only [Wrapped.perform, computes.step?, Tag.forward_named named]
  rfl

theorem perform_step (d : Direction) :
    Wrapped.perform I w (.step d) =
      Wrapped.settle w (some ((A.apply d.operator w.value A.one).map Wrapped.mk)) := by
  have outer : (I.wrap tag).Computes (A.wrap tag) := computes.wrap (by rw [named]; rfl)
  simp only [Wrapped.perform, outer.step?]
  rfl

theorem moveMethod? :
    I.moveMethod? tag = some fun d w => (A.apply d.operator w.value A.one).map Wrapped.mk := by
  simp only [Interface.moveMethod?, computes.step?, Tag.forward_named named]
  rfl

theorem perform_move (d : Direction) (moment : Moment) :
    Wrapped.perform I w (.move d moment) =
      match A.apply d.operator w.value A.one with
      | .ok v => Wrapped.answer (.value (match moment with | .before => w.value | .after => v)) ⟨v⟩
      | .error fault => (.fault fault, w) := by
  have clonable : (I.wrap tag).clonable = true := computes.clonable
  simp only [Wrapped.perform, Wrapped.moveBy, computes.moveMethod? named]
  cases moment with
  | before =>
    simp only [clonable, if_true]
    cases A.apply d.operator w.value A.one <;> rfl
  | after =>
    dsimp only
    cases A.apply d.operator w.value A.one <;> rfl

theorem perform_chain (moves : List Direction) :
    Wrapped.perform I w (.chain moves) =
      Wrapped.walk (fun d w => (A.apply d.operator w.value A.one).map Wrapped.mk) moves w := by
  simp only [Wrapped.perform, computes.moveMethod? named]

end Computes

end Interface

end Nominal
