import Mathlib.Algebra.Order.BigOperators.Group.List
import Nominal.Proofs.Comparison
import Nominal.Proofs.Integer.Residue
import Nominal.Proofs.Integer.Steps

/-! Runs that saturate. Sums one after another that all go one way meet at most one bound, and
having met it they stay there, so they end where one sum would. Mixed sums may meet both
bounds, and then where they end depends on their order. What every step keeps is the order of
two states: whichever of them is at a bound, the lower one does not overtake the other. -/

namespace Nominal

variable {V : Type} {f : IntFormat}

/-- The two kinds of integer types with sums and differences that stay at the bounds. -/
inductive Saturation where
  | methods
  | operators

namespace Saturation

def interface (f : IntFormat) : Saturation → Interface (FixedInt f)
  | methods => Interface.integer f
  | operators => Interface.saturating f

inductive Form : Saturation → (Operator → Operand V → Step V) → Prop where
  | method : Form methods .saturating
  | operate : Form operators .operate
  | compound : Form operators .compound

inductive Shift (k : Saturation) (d : Direction) (v : V) : Step V → Prop where
  | wrapped {form : Operator → Operand V → Step V} (has : k.Form form) :
    Shift k d v (form d.operator (.wrapped v))
  | bare {form : Operator → Operand V → Step V} (has : k.Form form) :
    Shift k d v (form d.operator (.bare v))

/-- Sums and differences with any operand, maxima and minima, and moves into an interval whose
ends are in order. -/
inductive Levels (k : Saturation) : Step (FixedInt f) → Prop where
  | shift {form : Operator → Operand (FixedInt f) → Step (FixedInt f)} (has : k.Form form)
      (d : Direction) (rhs : Operand (FixedInt f)) : Levels k (form d.operator rhs)
  | extremum (e : Extremum) (v : FixedInt f) : Levels k (.extremum e v)
  | clamp (low high : FixedInt f) (ends : low.toInt ≤ high.toInt) : Levels k (.clamp low high)

end Saturation

/-- Where a total added or taken away leads, when there is a bound in the way. -/
def Direction.halt (f : IntFormat) (n total : Int) : Direction → Int
  | .forward => min f.max (n + total)
  | .backward => max f.min (n - total)

theorem Direction.halt_halt (d : Direction) (n first : Int) {second : Int}
    (nonneg : 0 ≤ second) :
    d.halt f (d.halt f n first) second = d.halt f n (first + second) := by
  cases d with
  | forward =>
    simp only [halt]
    omega
  | backward =>
    simp only [halt]
    omega

theorem Direction.halt_zero (d : Direction) (a : FixedInt f) : d.halt f a.toInt 0 = a.toInt := by
  have low := a.min_le
  have high := a.le_max
  cases d with
  | forward =>
    simp only [halt]
    omega
  | backward =>
    simp only [halt]
    omega

namespace FixedInt

theorem toInt_clamp (n : Int) : (clamp f n).toInt = max f.min (min f.max n) := by
  have low := f.min_nonpos
  have high := f.max_ge
  simp only [clamp]
  omega

theorem clamp_mono {m n : Int} (le : m ≤ n) : (clamp f m).toInt ≤ (clamp f n).toInt := by
  rw [toInt_clamp, toInt_clamp]
  omega

theorem toInt_saturating_of_nonneg (d : Direction) (a : FixedInt f) {v : FixedInt f}
    (nonneg : 0 ≤ v.toInt) : (a.saturating d.operator v).toInt = d.halt f a.toInt v.toInt := by
  have low := a.min_le
  have high := a.le_max
  cases d with
  | forward =>
    simp only [saturating, toInt_clamp, Direction.operator, Operator.exact, Direction.halt]
    omega
  | backward =>
    simp only [saturating, toInt_clamp, Direction.operator, Operator.exact, Direction.halt]
    omega

/-- Of two numbers the lower one stays the lower, also where each is its own operand. -/
theorem saturating_mono (d : Direction) (rhs : Operand (FixedInt f)) {a b : FixedInt f}
    (le : a.toInt ≤ b.toInt) :
    (a.saturating d.operator (rhs.contribution a)).toInt ≤
      (b.saturating d.operator (rhs.contribution b)).toInt := by
  apply clamp_mono
  cases d with
  | forward =>
    simp only [Direction.operator, Operator.exact]
    cases rhs <;> simp only [Operand.contribution] <;> omega
  | backward =>
    simp only [Direction.operator, Operator.exact]
    cases rhs <;> simp only [Operand.contribution] <;> omega

theorem isLE_compare_iff (a b : FixedInt f) :
    (compare a b).isLE = true ↔ a.toInt ≤ b.toInt := Int.isLE_compare

theorem saturatingApply_of_not_divides {op : Operator} (ring : ¬ op.Divides) (a b : FixedInt f) :
    a.saturatingApply op b = .ok (a.saturating op b) := by
  simp only [saturatingApply, Operator.refusal?_of_not_divides ring]
  exact if_neg fun special => ring (.inr special.1)

end FixedInt

namespace Wrapped

variable {tag : Tag} {name : Text} {k : Saturation}

theorem perform_saturation (named : tag.name? = some name)
    {form : Operator → Operand (FixedInt f) → Step (FixedInt f)} (has : k.Form form)
    (d : Direction) (w : Wrapped tag (FixedInt f)) (rhs : Operand (FixedInt f)) :
    perform (k.interface f) w (form d.operator rhs) =
      answer .nothing ⟨w.value.saturating d.operator (rhs.contribution w.value)⟩ := by
  have stays := FixedInt.saturatingApply_of_not_divides d.not_divides w.value
    (rhs.contribution w.value)
  cases has with
  | method => exact perform_saturating named w d.not_divides rhs
  | operate =>
    simp only [perform, operate_eq, Saturation.interface, Interface.saturating,
      Tag.forward_named named, stays]
    rfl
  | compound =>
    simp only [perform, compound_eq, Saturation.interface, Interface.saturating,
      Tag.forward_named named, stays]
    rfl

theorem perform_shift (named : tag.name? = some name) {d : Direction} {v : FixedInt f}
    {s : Step (FixedInt f)} (shift : k.Shift d v s) (w : Wrapped tag (FixedInt f)) :
    perform (k.interface f) w s = answer .nothing ⟨w.value.saturating d.operator v⟩ := by
  cases shift with
  | wrapped has => exact perform_saturation named has d w (.wrapped v)
  | bare has => exact perform_saturation named has d w (.bare v)

theorem run_shifts (named : tag.name? = some name) {d : Direction} {script : List (Step (FixedInt f))}
    {vs : List (FixedInt f)} (shifts : List.Forall₂ (fun s v => k.Shift d v s) script vs)
    (nonneg : ∀ v ∈ vs, 0 ≤ v.toInt) (w : Wrapped tag (FixedInt f)) :
    (∀ e ∈ run (k.interface f) w script, e.reply = .done .nothing) ∧
      (final (k.interface f) w script).value.toInt =
        d.halt f w.value.toInt (vs.map FixedInt.toInt).sum := by
  -- Where the first sum met the bound, `halt_halt` absorbs all the later ones.
  induction shifts generalizing w with
  | nil =>
    constructor
    · intro e he
      cases he
    · exact (d.halt_zero w.value).symm
  | @cons s v script vs shift rest ih =>
    have first := nonneg v List.mem_cons_self
    have later : ∀ u ∈ vs, 0 ≤ u.toInt := fun u hu => nonneg u (List.mem_cons_of_mem _ hu)
    have here := perform_shift named shift w
    obtain ⟨done, ends⟩ := ih later ⟨w.value.saturating d.operator v⟩
    have total : 0 ≤ (vs.map FixedInt.toInt).sum :=
      List.sum_nonneg (List.forall_mem_map.mpr later)
    simp only [run, final, here, answer, List.map_cons, List.sum_cons]
    constructor
    · intro e he
      rcases List.mem_cons.mp he with rfl | he
      · rfl
      · exact done e he
    · rw [ends, FixedInt.toInt_saturating_of_nonneg d w.value first,
        d.halt_halt _ _ total]

theorem perform_levels (named : tag.name? = some name) {s : Step (FixedInt f)} (levels : k.Levels s)
    {a b : Wrapped tag (FixedInt f)} (le : a.value.toInt ≤ b.value.toInt) :
    ∃ a' b', perform (k.interface f) a s = answer .nothing a' ∧
      perform (k.interface f) b s = answer .nothing b' ∧ a'.value.toInt ≤ b'.value.toInt := by
  have total : (k.interface f).compare? = some FixedInt.compare := by cases k <;> rfl
  have ordered := Interface.ordered_integerBase f
  have order := transCmp_of_key (ordered.transitive FixedInt.compare rfl)
    (Wrapped.value : Wrapped tag (FixedInt f) → _)
  have lawful := lawfulEqCmp_of_key (ordered.lawful FixedInt.compare rfl)
    fun (a b : Wrapped tag (FixedInt f)) => Wrapped.ext
  cases levels with
  | shift has d rhs =>
    exact ⟨_, _, perform_saturation named has d a rhs, perform_saturation named has d b rhs,
      FixedInt.saturating_mono d rhs le⟩
  | extremum e v =>
    have bounds := boundsBy named total order
    have kept := extremum_mono order e ⟨v⟩ ((FixedInt.isLE_compare_iff _ _).mpr le)
    cases e with
    | max => exact ⟨_, _, bounds.max a v, bounds.max b v, (FixedInt.isLE_compare_iff _ _).mp kept⟩
    | min => exact ⟨_, _, bounds.min a v, bounds.min b v, (FixedInt.isLE_compare_iff _ _).mp kept⟩
  | clamp low high ends =>
    have clamps := clampsBy named total order lawful ((FixedInt.isLE_compare_iff _ _).mpr ends)
    have kept := clamps.monotone a b ((FixedInt.isLE_compare_iff _ _).mpr le)
    exact ⟨_, _, clamps.clamp a, clamps.clamp b, (FixedInt.isLE_compare_iff _ _).mp kept⟩

theorem run_levels (named : tag.name? = some name) {script : List (Step (FixedInt f))}
    (levels : ∀ s ∈ script, k.Levels s) {a b : Wrapped tag (FixedInt f)}
    (le : a.value.toInt ≤ b.value.toInt) :
    List.Forall₂
      (fun e e' : Entry (FixedInt f) => e.reply = .done .nothing ∧ e'.reply = .done .nothing ∧
        e.state.toInt ≤ e'.state.toInt)
      (run (k.interface f) a script) (run (k.interface f) b script) := by
  induction script generalizing a b with
  | nil => exact .nil
  | cons s rest ih =>
    obtain ⟨a', b', lower, upper, kept⟩ := perform_levels named (levels s List.mem_cons_self) le
    have later := ih (fun s hs => levels s (List.mem_cons_of_mem _ hs)) kept
    simp only [run, lower, upper, answer]
    exact .cons ⟨rfl, rfl, kept⟩ later

/-- Sums of values that are not negative end at the exact total or at the greatest number, and
differences at the exact total or at the least one, in any order. A script that mixes them with
maxima, minima and moves into intervals keeps two states in order. -/
theorem saturating_runs (k : Saturation) (f : IntFormat) (tag : Tag)
    (named : tag.name?.isSome = true) :
    (∀ (d : Direction) (w : Wrapped tag (FixedInt f)) (script : List (Step (FixedInt f)))
      (vs : List (FixedInt f)), List.Forall₂ (fun s v => k.Shift d v s) script vs →
      (∀ v ∈ vs, 0 ≤ v.toInt) →
        (∀ e ∈ run (k.interface f) w script, e.reply = .done .nothing) ∧
        (final (k.interface f) w script).value.toInt =
          d.halt f w.value.toInt (vs.map FixedInt.toInt).sum ∧
        ∀ script' vs', List.Forall₂ (fun s v => k.Shift d v s) script' vs' → vs.Perm vs' →
          final (k.interface f) w script' = final (k.interface f) w script) ∧
      ∀ script : List (Step (FixedInt f)), (∀ s ∈ script, k.Levels s) →
        ∀ a b : Wrapped tag (FixedInt f), a.value.toInt ≤ b.value.toInt →
          List.Forall₂
            (fun e e' : Entry (FixedInt f) => e.reply = .done .nothing ∧
              e'.reply = .done .nothing ∧ e.state.toInt ≤ e'.state.toInt)
            (run (k.interface f) a script) (run (k.interface f) b script) := by
  obtain ⟨name, named⟩ := Option.isSome_iff_exists.mp named
  constructor
  · intro d w script vs shifts nonneg
    obtain ⟨done, ends⟩ := run_shifts named shifts nonneg w
    refine ⟨done, ends, fun script' vs' shifts' rearranged => ?_⟩
    obtain ⟨-, ends'⟩ := run_shifts named shifts' (fun v hv => nonneg v (rearranged.mem_iff.mpr hv)) w
    have total := (rearranged.map FixedInt.toInt).sum_eq
    apply Wrapped.ext
    apply FixedInt.ext
    rw [ends, ends', total]
  · intro script levels a b le
    exact run_levels named levels le

theorem saturating_runs_clamp :
    let number (n : Int) : FixedInt .int8 := FixedInt.clamp .int8 n
    let w : Wrapped (Tag.named "Clamp") (FixedInt .int8) := ⟨number 100⟩
    let script : List (Step (FixedInt .int8)) :=
      [.operate .add (.wrapped (number 20)), .compound .add (.bare (number 100))]
    let mixed : List (Step (FixedInt .int8)) :=
      [.compound .sub (.bare (number 100)), .extremum .min (number 90), .operate .add .itself,
        .clamp (number (-127)) (number 60), .operate .sub (.wrapped (number (-100)))]
    (Tag.named "Clamp").name?.isSome = true ∧
      (final (Interface.saturating .int8) w script).value.toInt = 127 ∧
      final (Interface.saturating .int8) w script.reverse =
        final (Interface.saturating .int8) w script ∧
      List.Forall₂
        (fun e e' : Entry (FixedInt .int8) => e.reply = .done .nothing ∧
          e'.reply = .done .nothing ∧ e.state.toInt ≤ e'.state.toInt)
        (run (Interface.saturating .int8) (⟨number (-100)⟩ : Wrapped (Tag.named "Clamp") _) mixed)
        (run (Interface.saturating .int8) w mixed) := by
  intro number w script mixed
  have named : (Tag.named "Clamp").name?.isSome = true := by decide
  obtain ⟨sums, levels⟩ := saturating_runs .operators .int8 (Tag.named "Clamp") named
  have shifts : List.Forall₂ (fun s v => Saturation.operators.Shift .forward v s) script
      [number 20, number 100] := .cons (.wrapped .operate) (.cons (.bare .compound) .nil)
  have shifts' : List.Forall₂ (fun s v => Saturation.operators.Shift .forward v s) script.reverse
      [number 100, number 20] := .cons (.bare .compound) (.cons (.wrapped .operate) .nil)
  obtain ⟨-, ends, orders⟩ := sums .forward w script _ shifts (by decide)
  refine ⟨named, ends.trans rfl, orders _ _ shifts' (.swap _ _ _), levels mixed ?_ _ _ (by decide)⟩
  simp only [mixed, List.forall_mem_cons]
  exact ⟨.shift .compound .backward _, .extremum .min _, .shift .operate .forward _,
    .clamp _ _ (by decide), .shift .operate .backward _, fun s hs => by cases hs⟩

end Wrapped

end Nominal
