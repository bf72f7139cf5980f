import Nominal.Proofs.Reversal

/-! Chains of moves over integers. A chain stops at the first move that leaves the range,
whatever the moves after it would do, so what counts is the whole way and not where it ends.
It stops at the bound in its way and keeps the moves it made. Where the numbers wrap around a
chain never stops, and only its end counts. -/

namespace Nominal

variable {V : Type} {A : Arithmetic V} {f : IntFormat} {number : V → Int}

namespace Direction

def reach (n : Int) (moves : List Direction) : Int :=
  n + moves.count .forward - moves.count .backward

/-- The number at which moves in a direction stop. -/
def last (f : IntFormat) : Direction → Int
  | .forward => f.max
  | .backward => f.min

theorem reach_nil (n : Int) : reach n [] = n := by simp [reach]

theorem reach_cons (n : Int) (d : Direction) (rest : List Direction) :
    reach n (d :: rest) = reach (n + d.offset) rest := by
  cases d with
  | forward => simp [reach, offset]; omega
  | backward => simp [reach, offset]; omega

theorem reach_append (n : Int) (before after : List Direction) :
    reach n (before ++ after) = reach (reach n before) after := by
  induction before generalizing n with
  | nil => rw [List.nil_append, reach_nil]
  | cons d rest ih => rw [List.cons_append, reach_cons, reach_cons, ih]

theorem reach_eq_sum (n : Int) (moves : List Direction) :
    reach n moves = n + (moves.map offset).sum := by
  induction moves generalizing n with
  | nil => rw [reach_nil, List.map_nil, List.sum_nil, Int.add_zero]
  | cons d rest ih => rw [reach_cons, ih, List.map_cons, List.sum_cons, Int.add_assoc]

theorem eq_last {n : Int} (inside : f.InRange n) (d : Direction)
    (leaves : ¬ f.InRange (n + d.offset)) : n = d.last f := by
  unfold IntFormat.InRange at inside leaves
  cases d with
  | forward => simp only [offset, last] at leaves ⊢; omega
  | backward => simp only [offset, last] at leaves ⊢; omega

end Direction

def Arithmetic.move {tag : Tag} (A : Arithmetic V) (d : Direction) (w : Wrapped tag V) :
    Except Fault (Wrapped tag V) :=
  (A.apply d.operator w.value A.one).map Wrapped.mk

namespace Arithmetic.IsPlain

variable {tag : Tag}

theorem move_of_inRange (plain : A.IsPlain f number) {d : Direction} {w : Wrapped tag V}
    (fits : f.InRange (number w.value + d.offset)) :
    ∃ v, A.move d w = .ok ⟨v⟩ ∧ number v = number w.value + d.offset := by
  rw [← d.exact_one, ← plain.one] at fits ⊢
  obtain ⟨v, made, result⟩ := plain.exists_apply d.not_divides fits
  refine ⟨v, ?_, result⟩
  rw [Arithmetic.move, made]
  rfl

theorem move_of_not_inRange (plain : A.IsPlain f number) {d : Direction} {w : Wrapped tag V}
    (leaves : ¬ f.InRange (number w.value + d.offset)) :
    A.move d w = .error (.overflow d.operator) := by
  rw [← d.exact_one, ← plain.one] at leaves
  rw [Arithmetic.move, plain.apply_of_not_inRange d.not_divides leaves]
  rfl

end Arithmetic.IsPlain

namespace Wrapped

open Direction

variable {tag : Tag}

theorem walk_of_inRange (plain : A.IsPlain f number) (moves : List Direction) (w : Wrapped tag V)
    (inside : ∀ i ≤ moves.length, f.InRange (reach (number w.value) (moves.take i))) :
    ∃ v, number v = reach (number w.value) moves ∧
      walk A.move moves w = answer (.value v) ⟨v⟩ := by
  induction moves generalizing w with
  | nil => exact ⟨w.value, (reach_nil _).symm, rfl⟩
  | cons d rest ih =>
    have fits : f.InRange (number w.value + d.offset) := by
      have first := inside 1 (by simp)
      rwa [List.take_succ_cons, List.take_zero, reach_cons, reach_nil] at first
    obtain ⟨next, made, moved⟩ := plain.move_of_inRange fits
    have later : ∀ i ≤ rest.length, f.InRange (reach (number next) (rest.take i)) := by
      intro i le
      have shifted := inside (i + 1) (by simpa using le)
      rwa [List.take_succ_cons, reach_cons, ← moved] at shifted
    obtain ⟨v, arrives, walked⟩ := ih ⟨next⟩ later
    refine ⟨v, ?_, ?_⟩
    · rw [arrives, reach_cons, moved]
    · rw [walk, made]
      exact walked

theorem walk_of_not_inRange (plain : A.IsPlain f number) {before : List Direction} {d : Direction}
    (after : List Direction) {w : Wrapped tag V}
    (inside : ∀ i ≤ before.length, f.InRange (reach (number w.value) (before.take i)))
    (leaves : ¬ f.InRange (reach (number w.value) before + d.offset)) :
    ∃ v, number v = reach (number w.value) before ∧
      walk A.move (before ++ d :: after) w = (.fault (.overflow d.operator), ⟨v⟩) := by
  obtain ⟨v, arrives, walked⟩ := walk_of_inRange plain before w inside
  rw [← arrives] at leaves
  have stops : A.move d (⟨v⟩ : Wrapped tag V) = .error (.overflow d.operator) :=
    plain.move_of_not_inRange leaves
  refine ⟨v, arrives, ?_⟩
  rw [walk_append walked, walk, stops]

/-- How chains end on values that stand for the integers of a format. The numbers on the way
are those over the unbounded integers, up to the first one that is out of range. -/
structure ChainsWithin (tag : Tag) (I : Interface V) (f : IntFormat) (number : V → Int)
    (w : Wrapped tag V) (moves : List Direction) : Prop where
  done : (∀ i ≤ moves.length, f.InRange (reach (number w.value) (moves.take i))) →
    ∃ v, number v = reach (number w.value) moves ∧
      perform I w (.chain moves) = answer (.value v) ⟨v⟩
  stopped : ∀ i ≤ moves.length, ¬ f.InRange (reach (number w.value) (moves.take i)) →
    (∀ j < i, f.InRange (reach (number w.value) (moves.take j))) →
    ∃ v, number v = reach (number w.value) (moves.take (i - 1)) ∧
      ((moves[i - 1]? = some .forward ∧ number v = f.max ∧
          perform I w (.chain moves) = (.fault (.overflow .add), ⟨v⟩)) ∨
        (moves[i - 1]? = some .backward ∧ number v = f.min ∧
          perform I w (.chain moves) = (.fault (.overflow .sub), ⟨v⟩)))

theorem chainsWithin {I : Interface V} (computes : I.Computes A) (plain : A.IsPlain f number)
    (named : tag.name?.isSome = true) (w : Wrapped tag V) (moves : List Direction) :
    ChainsWithin tag I f number w moves := by
  obtain ⟨name, named⟩ := Option.isSome_iff_exists.mp named
  have walks : perform I w (.chain moves) = walk A.move moves w :=
    computes.perform_chain named w moves
  constructor
  · intro inside
    rw [walks]
    exact walk_of_inRange plain moves w inside
  · intro i le outside least
    cases i with
    | zero =>
      rw [List.take_zero, reach_nil] at outside
      exact absurd (plain.inRange w.value) outside
    | succ i =>
      -- All the moves before this one are made, and it is the first that leaves the range.
      have there : moves[i]? = some moves[i] := List.getElem?_eq_getElem le
      have split : moves.take i ++ moves[i] :: moves.drop (i + 1) = moves := by
        rw [← List.drop_eq_getElem_cons le, List.take_append_drop]
      have inside : ∀ j ≤ (moves.take i).length,
          f.InRange (reach (number w.value) ((moves.take i).take j)) := by
        intro j short
        rw [List.length_take] at short
        rw [List.take_take]
        exact least _ (by omega)
      rw [← List.take_append_getElem le, reach_append, reach_cons, reach_nil] at outside
      obtain ⟨v, arrives, stopped⟩ :=
        walk_of_not_inRange plain (moves.drop (i + 1)) inside outside
      rw [split, ← walks] at stopped
      have bound : number v = moves[i].last f := by
        apply eq_last (plain.inRange v)
        rwa [arrives]
      refine ⟨v, arrives, ?_⟩
      rw [Nat.add_sub_cancel, there]
      cases step : moves[i] with
      | forward =>
        rw [step] at bound stopped
        exact .inl ⟨rfl, bound, stopped⟩
      | backward =>
        rw [step] at bound stopped
        exact .inr ⟨rfl, bound, stopped⟩

/-- A chain is done if no move on the way leaves the range, and otherwise it stops before the
first move that does. Over a type that wraps around the exact end is reduced once. -/
theorem chain_outcome (f : IntFormat) (tag : Tag) (named : tag.name?.isSome = true) :
    (∀ tags : List Tag, (∀ t ∈ tags, t.name?.isSome = true) →
      ∀ (w : Wrapped tag (Nest tags (FixedInt f))) (moves : List Direction),
        ChainsWithin tag ((Interface.integer f).nest tags) f Nest.number w moves) ∧
      ∀ (w : Wrapped tag (FixedInt f)) (moves : List Direction),
        perform (Interface.wrapping f) w (.chain moves) =
          answer (.value (FixedInt.reduce f (reach w.value.toInt moves)))
            ⟨FixedInt.reduce f (reach w.value.toInt moves)⟩ := by
  constructor
  · intro tags inner w moves
    have computes := (Interface.computes_integer f).nest inner
    exact chainsWithin computes (Arithmetic.IsPlain.nest f tags) named w moves
  · intro w moves
    obtain ⟨name, named⟩ := Option.isSome_iff_exists.mp named
    rw [(Interface.computes_wrapping f).perform_chain named, reach_eq_sum]
    exact walk_wrapping moves (Int.ModEq.refl w.value.toInt)

/-- A way that ends where it began, over the greatest number, and the same way in numbers
that wrap around. -/
theorem chain_outcome_greatest :
    let moves : List Direction := [.forward, .forward, .backward, .backward]
    let w : Wrapped Catalogue.outerTag (Wrapped Catalogue.meterTag (FixedInt .int32)) :=
      ⟨⟨FixedInt.clamp .int32 2147483646⟩⟩
    let wheel : Wrapped Catalogue.outerTag (FixedInt .int32) := ⟨w.value.value⟩
    Catalogue.outerTag.name?.isSome = true ∧ Catalogue.meterTag.name?.isSome = true ∧
      (∃ v, v.value.toInt = 2147483647 ∧
        perform Catalogue.meter.interface w (.chain moves) = (.fault (.overflow .add), ⟨v⟩)) ∧
      perform (Interface.wrapping .int32) wheel (.chain moves) =
        answer (.value wheel.value) wheel := by
  intro moves w wheel
  have outer : Catalogue.outerTag.name?.isSome = true := by decide
  have inner : ∀ t ∈ [Catalogue.meterTag], t.name?.isSome = true := by decide
  obtain ⟨plain, wrapping⟩ := chain_outcome .int32 Catalogue.outerTag outer
  refine ⟨outer, inner _ List.mem_cons_self, ?_, ?_⟩
  · obtain ⟨v, arrives, ⟨-, bound, stopped⟩ | ⟨backward, -, -⟩⟩ :=
      (plain [Catalogue.meterTag] inner w moves).stopped 2 (by decide) (by decide) (by decide)
    · exact ⟨v, bound, stopped⟩
    · cases backward
  · have home : reach wheel.value.toInt moves = wheel.value.toInt := by decide
    have reduced : FixedInt.reduce .int32 wheel.value.toInt = wheel.value :=
      ((FixedInt.modEq_iff_eq_reduce _ _).mp (Int.ModEq.refl _)).symm
    rw [wrapping wheel moves, home, reduced]

end Wrapped

end Nominal
