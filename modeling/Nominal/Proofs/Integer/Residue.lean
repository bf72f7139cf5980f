import Mathlib.Data.Int.ModEq
import Nominal.Catalogue
import Nominal.Proofs.Integer.Exact
import Nominal.Proofs.Total

/-! Wrapping arithmetic as arithmetic of residues. A wrapping operator reduces after every
step. A calculator over the unbounded integers, which never reduces, stays congruent to it
along every script of sums, differences, products, sign changes and moves, so one
reduction at the end gives the same number. The totals of a list are a case of this. -/

namespace Nominal

variable {V W : Type} {f : IntFormat}

namespace FixedInt

theorem reduce_modEq (f : IntFormat) (n : Int) : (reduce f n).toInt ≡ n [ZMOD f.modulus] :=
  (Int.modEq_iff_dvd.mpr (reduce_congruent n)).symm

theorem eq_of_modEq {a b : FixedInt f} (same : a.toInt ≡ b.toInt [ZMOD f.modulus]) : a = b := by
  obtain ⟨k, difference⟩ := Int.modEq_iff_dvd.mp same
  have span := f.max_sub_min
  have lowA := a.min_le
  have highA := a.le_max
  have lowB := b.min_le
  have highB := b.le_max
  have close : k = 0 := by
    have below : (f.modulus : Int) * k < f.modulus * 1 := by omega
    have above : (f.modulus : Int) * (-1) < f.modulus * k := by omega
    have positive : (0 : Int) < f.modulus := by omega
    have := Int.lt_of_mul_lt_mul_left below (Int.le_of_lt positive)
    have := Int.lt_of_mul_lt_mul_left above (Int.le_of_lt positive)
    omega
  subst close
  apply ext
  omega

theorem natCast_pattern (a : FixedInt f) : (a.pattern : Int) = a.toInt % f.modulus := by
  have positive : (0 : Int) < f.modulus := Int.natCast_pos.mpr (Nat.two_pow_pos f.bits)
  exact Int.toNat_of_nonneg (Int.emod_nonneg _ (Int.ne_of_gt positive))

theorem pattern_inj {a b : FixedInt f} (same : a.pattern = b.pattern) : a = b := by
  apply eq_of_modEq
  calc a.toInt % f.modulus
    _ = a.pattern := a.natCast_pattern.symm
    _ = b.pattern := congrArg Nat.cast same
    _ = b.toInt % f.modulus := b.natCast_pattern

theorem modEq_iff_eq_reduce (x : FixedInt f) (n : Int) :
    x.toInt ≡ n [ZMOD f.modulus] ↔ x = reduce f n := by
  constructor
  · intro same
    exact eq_of_modEq (same.trans (reduce_modEq f n).symm)
  · rintro rfl
    exact reduce_modEq f n

theorem reduce_eq_of_modEq {m n : Int} (same : m ≡ n [ZMOD f.modulus]) :
    reduce f m = reduce f n :=
  eq_of_modEq ((reduce_modEq f m).trans (same.trans (reduce_modEq f n).symm))

theorem wrappingApply_of_refusal {op : Operator} {a b : FixedInt f} {fault : Fault}
    (refused : op.refusal? b.toInt = some fault) : a.wrappingApply op b = .error fault := by
  simp only [wrappingApply, refused]

theorem wrappingApply_of_regular {op : Operator} {a b : FixedInt f}
    (regular : op.Divides → b.toInt ≠ 0) :
    a.wrappingApply op b = .ok (reduce f (op.exact a.toInt b.toInt)) := by
  have accepted : op.refusal? b.toInt = none := (op.refusal?_eq_none_iff b.toInt).mpr regular
  simp only [wrappingApply, accepted]

theorem wrappingApply_of_not_divides {op : Operator} (ring : ¬ op.Divides) (a b : FixedInt f) :
    a.wrappingApply op b = .ok (reduce f (op.exact a.toInt b.toInt)) :=
  wrappingApply_of_regular fun divides => absurd divides ring

end FixedInt

theorem Operator.exact_modEq {op : Operator} (ring : ¬ op.Divides) {m a a' b b' : Int}
    (left : a ≡ a' [ZMOD m]) (right : b ≡ b' [ZMOD m]) :
    op.exact a b ≡ op.exact a' b' [ZMOD m] := by
  cases op with
  | add => exact left.add right
  | sub => exact left.sub right
  | mul => exact left.mul right
  | div => exact absurd (.inl rfl) ring
  | rem => exact absurd (.inr rfl) ring

def Direction.offset : Direction → Int
  | .forward => 1
  | .backward => -1

theorem Direction.not_divides (d : Direction) : ¬ d.operator.Divides := by
  cases d <;> decide

theorem Direction.exact_one (d : Direction) (n : Int) : d.operator.exact n 1 = n + d.offset := by
  cases d <;> rfl

inductive RingStep (V : Type) where
  | operate (op : Operator) (rhs : Operand V) (ring : ¬ op.Divides)
  | compound (op : Operator) (rhs : Operand V) (ring : ¬ op.Divides)
  | negate
  | move (d : Direction) (moment : Moment)
  | step (d : Direction)
  | bareStep (d : Direction)
  | chain (moves : List Direction)

namespace RingStep

def toStep : RingStep V → Step V
  | .operate op rhs _ => .operate op rhs
  | .compound op rhs _ => .compound op rhs
  | .negate => .negate
  | .move d moment => .move d moment
  | .step d => .step d
  | .bareStep d => .bareStep d
  | .chain moves => .chain moves

def along (g : V → W) : RingStep V → RingStep W
  | .operate op rhs ring => .operate op (rhs.along g) ring
  | .compound op rhs ring => .compound op (rhs.along g) ring
  | .negate => .negate
  | .move d moment => .move d moment
  | .step d => .step d
  | .bareStep d => .bareStep d
  | .chain moves => .chain moves

def exact (n : Int) : RingStep Int → Int
  | .operate op rhs _ | .compound op rhs _ => op.exact n (rhs.contribution n)
  | .negate => -n
  | .move d _ | .step d | .bareStep d => n + d.offset
  | .chain moves => n + (moves.map Direction.offset).sum

def exactRun (n : Int) : List (RingStep Int) → List Int
  | [] => []
  | s :: rest => s.exact n :: exactRun (s.exact n) rest

end RingStep

namespace Wrapped

variable {tag : Tag} {name : Text}

theorem contribution_modEq (rhs : Operand (FixedInt f)) {x : FixedInt f} {n : Int}
    (same : x.toInt ≡ n [ZMOD f.modulus]) :
    (rhs.contribution x).toInt ≡ (rhs.along FixedInt.toInt).contribution n [ZMOD f.modulus] := by
  cases rhs with
  | wrapped v => exact Int.ModEq.refl _
  | bare v => exact Int.ModEq.refl _
  | itself => exact same

theorem wrapping_apply {op : Operator} (ring : ¬ op.Divides) (rhs : Operand (FixedInt f))
    {x : FixedInt f} {n : Int} (same : x.toInt ≡ n [ZMOD f.modulus]) :
    (Arithmetic.wrapping f).apply op x (rhs.contribution x) =
      .ok (FixedInt.reduce f (op.exact n ((rhs.along FixedInt.toInt).contribution n))) := by
  have results := op.exact_modEq ring same (contribution_modEq rhs same)
  calc x.wrappingApply op (rhs.contribution x)
    _ = .ok (FixedInt.reduce f (op.exact x.toInt (rhs.contribution x).toInt)) :=
      FixedInt.wrappingApply_of_not_divides ring _ _
    _ = .ok (FixedInt.reduce f (op.exact n ((rhs.along FixedInt.toInt).contribution n))) := by
      rw [FixedInt.reduce_eq_of_modEq results]

theorem wrapping_move (d : Direction) {x : FixedInt f} {n : Int}
    (same : x.toInt ≡ n [ZMOD f.modulus]) :
    (Arithmetic.wrapping f).apply d.operator x (Arithmetic.wrapping f).one =
      .ok (FixedInt.reduce f (n + d.offset)) := by
  have made := wrapping_apply d.not_divides (.bare (FixedInt.one f)) same
  simp only [Operand.along, Operand.contribution, FixedInt.toInt_one, d.exact_one] at made
  exact made

theorem walk_wrapping (moves : List Direction) {w : Wrapped tag (FixedInt f)} {n : Int}
    (same : w.value.toInt ≡ n [ZMOD f.modulus]) :
    walk (fun d w => ((Arithmetic.wrapping f).apply d.operator w.value
        (Arithmetic.wrapping f).one).map Wrapped.mk) moves w =
      answer (.value (FixedInt.reduce f (n + (moves.map Direction.offset).sum)))
        ⟨FixedInt.reduce f (n + (moves.map Direction.offset).sum)⟩ := by
  induction moves generalizing w n with
  | nil =>
    have still : w.value = FixedInt.reduce f n := (FixedInt.modEq_iff_eq_reduce _ _).mp same
    simp only [walk, List.map_nil, List.sum_nil, Int.add_zero, ← still]
  | cons d rest ih =>
    have made := wrapping_move d same
    have later := ih (w := ⟨FixedInt.reduce f (n + d.offset)⟩) (FixedInt.reduce_modEq f _)
    simp only [walk, made, List.map_cons, List.sum_cons, ← Int.add_assoc]
    exact later

theorem perform_ringStep (named : tag.name? = some name) {w : Wrapped tag (FixedInt f)} {n : Int}
    (same : w.value.toInt ≡ n [ZMOD f.modulus]) (s : RingStep (FixedInt f)) :
    ∃ a, perform (Interface.wrapping f) w s.toStep =
      answer a ⟨FixedInt.reduce f ((s.along FixedInt.toInt).exact n)⟩ := by
  have computes := Interface.computes_wrapping f
  cases s with
  | operate op rhs ring =>
    refine ⟨.nothing, ?_⟩
    rw [RingStep.toStep, computes.perform_operate named, wrapping_apply ring rhs same]
    rfl
  | compound op rhs ring =>
    refine ⟨.nothing, ?_⟩
    rw [RingStep.toStep, computes.perform_compound named, wrapping_apply ring rhs same]
    rfl
  | negate =>
    refine ⟨.nothing, ?_⟩
    have flipped : -w.value.toInt ≡ -n [ZMOD f.modulus] := same.neg
    simp only [RingStep.toStep, perform, Interface.wrap, Interface.wrapping,
      Tag.forward_named named, Option.map_some, tryMap, FixedInt.wrappingNeg,
      FixedInt.reduce_eq_of_modEq flipped]
    rfl
  | move d moment =>
    have made := wrapping_move d same
    rw [RingStep.toStep, computes.perform_move named, made]
    exact ⟨_, rfl⟩
  | step d =>
    refine ⟨.nothing, ?_⟩
    have made := wrapping_move d same
    rw [RingStep.toStep, computes.perform_step named, made]
    rfl
  | bareStep d =>
    refine ⟨.nothing, ?_⟩
    have made := wrapping_move d same
    rw [RingStep.toStep, computes.perform_bareStep named, made]
    rfl
  | chain moves =>
    rw [RingStep.toStep, computes.perform_chain named]
    exact ⟨_, walk_wrapping moves same⟩

theorem run_ringSteps (named : tag.name? = some name) {w : Wrapped tag (FixedInt f)} {n : Int}
    (same : w.value.toInt ≡ n [ZMOD f.modulus]) (script : List (RingStep (FixedInt f))) :
    (run (Interface.wrapping f) w (script.map RingStep.toStep)).map Entry.state =
        (RingStep.exactRun n (script.map (RingStep.along FixedInt.toInt))).map (FixedInt.reduce f) ∧
      ∀ e ∈ run (Interface.wrapping f) w (script.map RingStep.toStep), ∃ a, e.reply = .done a := by
  -- The calculator leaves the range, and after every step it is congruent to the state.
  induction script generalizing w n with
  | nil =>
    constructor
    · rfl
    · intro e he
      cases he
  | cons s rest ih =>
    obtain ⟨a, here⟩ := perform_ringStep named same s
    obtain ⟨states, replies⟩ := ih (w := ⟨FixedInt.reduce f ((s.along FixedInt.toInt).exact n)⟩)
      (FixedInt.reduce_modEq f _)
    simp only [List.map_cons, run, here, answer, RingStep.exactRun]
    constructor
    · rw [states]
    · intro e he
      rcases List.mem_cons.mp he with rfl | later
      · exact ⟨a, rfl⟩
      · exact replies e later

end Wrapped

namespace FixedInt

theorem foldlM_wrappingApply {op : Operator} (ring : ¬ op.Divides) (xs : List (FixedInt f))
    {a : FixedInt f} {n : Int} (same : a.toInt ≡ n [ZMOD f.modulus]) :
    xs.foldlM (fun total x => total.wrappingApply op x) a =
      .ok (reduce f ((xs.map toInt).foldl op.exact n)) := by
  induction xs generalizing a n with
  | nil =>
    have still : a = reduce f n := (modEq_iff_eq_reduce _ _).mp same
    rw [still]
    rfl
  | cons x rest ih =>
    have results := op.exact_modEq ring same (Int.ModEq.refl x.toInt)
    rw [List.foldlM_cons, wrappingApply_of_not_divides ring, reduce_eq_of_modEq results]
    exact ih (reduce_modEq f _)

end FixedInt

theorem Arithmetic.total_wrapping (t : Total) (xs : List (FixedInt f)) :
    (Arithmetic.wrapping f).total t xs =
      .ok (FixedInt.reduce f (t.exact (xs.map FixedInt.toInt))) := by
  have start : ((Arithmetic.wrapping f).start t).toInt ≡ t.exact [] [ZMOD f.modulus] := by
    cases t <;> rfl
  rw [← t.foldl_exact]
  exact FixedInt.foldlM_wrappingApply t.not_divides xs start

namespace Wrapped

variable {tag : Tag}

theorem performList_wrapping (named : tag.name?.isSome = true) (t : Total)
    (ws : List (Wrapped tag (FixedInt f))) {s : ListStep (FixedInt f)}
    (totals : s ∈ [t.step, t.stepRef]) :
    performList (Interface.wrapping f) ws s =
      (.done (.total (FixedInt.reduce f (t.exact (ws.map fun w => w.value.toInt)))), ws) := by
  have total := Arithmetic.total_wrapping t (ws.map value)
  rw [List.map_map] at total
  simp only [List.mem_cons, List.not_mem_nil, or_false] at totals
  rcases totals with rfl | rfl
  · rw [performList_total (Interface.totals_wrapping f) named, total]
    rfl
  · rw [performList_totalRef (Interface.totals_wrapping f) named, total]
    rfl

/-- A script of ring steps never stops with a fault, and its states are those of the unbounded
calculator, each reduced once. So are totals, which therefore do not depend on the order of the
items. -/
theorem run_eq_reduce_exactRun (f : IntFormat) (tag : Tag) (named : tag.name?.isSome = true) :
    (∀ (n : Int) (x : FixedInt f), x.toInt ≡ n [ZMOD f.modulus] ↔ x = FixedInt.reduce f n) ∧
      (∀ (w : Wrapped tag (FixedInt f)) (script : List (RingStep (FixedInt f))),
        (∀ e ∈ run (Interface.wrapping f) w (script.map RingStep.toStep),
            ∃ a, e.reply = .done a) ∧
          (run (Interface.wrapping f) w (script.map RingStep.toStep)).map Entry.state =
            (RingStep.exactRun w.value.toInt (script.map (RingStep.along FixedInt.toInt))).map
              (FixedInt.reduce f)) ∧
      ∀ (t : Total) (ws : List (Wrapped tag (FixedInt f))), ∀ s ∈ [t.step, t.stepRef],
        performList (Interface.wrapping f) ws s =
            (.done (.total (FixedInt.reduce f (t.exact (ws.map fun w => w.value.toInt)))), ws) ∧
          ∀ ws', ws.Perm ws' → (performList (Interface.wrapping f) ws' s).1 =
            (performList (Interface.wrapping f) ws s).1 := by
  refine ⟨fun n x => FixedInt.modEq_iff_eq_reduce x n, fun w script => ?_, fun t ws s totals => ?_⟩
  · obtain ⟨name, named⟩ := Option.isSome_iff_exists.mp named
    obtain ⟨states, replies⟩ := run_ringSteps named (Int.ModEq.refl w.value.toInt) script
    exact ⟨replies, states⟩
  · have here := performList_wrapping named t ws totals
    constructor
    · exact here
    · intro ws' rearranged
      have numbers := rearranged.map fun w => w.value.toInt
      rw [here, performList_wrapping named t ws' totals, t.exact_perm numbers]

/-- The least number is its own negative, and its totals come out the same in any order. -/
theorem run_eq_reduce_exactRun_wheel :
    let least : FixedInt .int32 := .least .int32
    let w : Wrapped (Tag.named "Wheel") (FixedInt .int32) := ⟨least⟩
    let unit : Wrapped (Tag.named "Wheel") (FixedInt .int32) := ⟨.one .int32⟩
    let script : List (RingStep (FixedInt .int32)) :=
      [.negate, .move .backward .after, .operate .mul .itself (by decide),
        .chain [.forward, .forward], .step .backward, .compound .sub (.bare least) (by decide)]
    (Tag.named "Wheel").name?.isSome = true ∧
      ((run (Interface.wrapping .int32) w (script.map RingStep.toStep)).map Entry.state).map
          FixedInt.toInt =
        [-2147483648, 2147483647, 1, 3, 2, -2147483646] ∧
      [w, w, unit].Perm [w, unit, w] ∧
      (performList (Interface.wrapping .int32) [w, unit, w] .sum).1 =
        .done (.total (FixedInt.one .int32)) := by
  intro least w unit script
  have named : (Tag.named "Wheel").name?.isSome = true := by decide
  have rearranged : [w, w, unit].Perm [w, unit, w] := .cons w (.swap unit w [])
  obtain ⟨-, runs, lists⟩ := run_eq_reduce_exactRun .int32 (Tag.named "Wheel") named
  obtain ⟨total, orders⟩ := lists .sum [w, w, unit] .sum (by simp [Total.step])
  refine ⟨named, ?_, rearranged, ?_⟩
  · rw [(runs w script).2]
    decide
  · rw [orders _ rearranged, total]
    rfl

end Wrapped

end Nominal
