import Nominal.Proofs.Integer.Exact
import Nominal.Proofs.Integer.Steps
import Nominal.Proofs.Nest

/-! Scripts of operators over the integers. A calculation is a step with one of the
five operators, in either form, or with the sign change. Run on a wrapper over a plain
integer type, through any number of wrappers, calculations leave the transcript of an
exact calculator, which works on unbounded integers and looks at the range only to
decide between a result and a fault. -/

namespace Nominal

variable {V W : Type}

inductive Calculation (V : Type) where
  | operate (op : Operator) (rhs : Operand V)
  | compound (op : Operator) (rhs : Operand V)
  | negate

namespace Calculation

def step : Calculation V → Step V
  | .operate op rhs => .operate op rhs
  | .compound op rhs => .compound op rhs
  | .negate => .negate

def along (g : V → W) : Calculation V → Calculation W
  | .operate op rhs => .operate op (rhs.along g)
  | .compound op rhs => .compound op (rhs.along g)
  | .negate => .negate

def owedNegation (f : IntFormat) (n : Int) : Except Fault Int :=
  if f.InRange (-n) then .ok (-n) else .error .negationOverflow

/-- The exact result takes the place of the state, and a fault leaves the state. -/
def exactEntry (n : Int) : Except Fault Int → Entry Int
  | .ok m => ⟨.done .nothing, m⟩
  | .error fault => ⟨.fault fault, n⟩

/-- One step of the exact calculator. An unsigned format has no sign change. -/
def exactStep (f : IntFormat) (n : Int) : Calculation Int → Entry Int
  | .operate op rhs | .compound op rhs => exactEntry n (op.owed f n (rhs.contribution n))
  | .negate => if f.signed then exactEntry n (owedNegation f n) else ⟨.unsupported, n⟩

def exactRun (f : IntFormat) (n : Int) : List (Calculation Int) → List (Entry Int)
  | [] => []
  | c :: rest => exactStep f n c :: exactRun f (exactStep f n c).state rest

theorem map_step_along (g : V → W) (script : List (Calculation V)) :
    (script.map step).map (Step.along g) = (script.map (along g)).map step := by
  rw [List.map_map, List.map_map]
  refine List.map_congr_left fun c _ => ?_
  cases c <;> rfl

theorem along_along {U : Type} (h : V → W) (g : U → V) (c : Calculation U) :
    (c.along g).along h = c.along fun u => h (g u) := by
  cases c <;> simp only [along, Operand.along_along]

theorem showsNoName_step (c : Calculation V) : c.step.showsNoName = true := by
  cases c <;> rfl

theorem reachesCore_step (c : Calculation V) : c.step.reachesCore = true := by
  cases c <;> rfl

theorem inRange_of_owedNegation {f : IntFormat} {n m : Int} (owes : owedNegation f n = .ok m) :
    f.InRange m := by
  unfold owedNegation at owes
  split at owes
  · cases owes
    assumption
  · cases owes

theorem inRange_exactEntry {f : IntFormat} {n : Int} (fits : f.InRange n)
    {owed : Except Fault Int} (fitting : ∀ m, owed = .ok m → f.InRange m) :
    f.InRange (exactEntry n owed).state := by
  cases owed with
  | ok m => exact fitting m rfl
  | error fault => exact fits

theorem inRange_exactStep {f : IntFormat} {n : Int} (fits : f.InRange n) (c : Calculation Int) :
    f.InRange (exactStep f n c).state := by
  cases c with
  | operate op rhs => exact inRange_exactEntry fits fun _ => Operator.inRange_of_owed
  | compound op rhs => exact inRange_exactEntry fits fun _ => Operator.inRange_of_owed
  | negate =>
    simp only [exactStep]
    split
    · exact inRange_exactEntry fits fun _ => inRange_of_owedNegation
    · exact fits

theorem inRange_exactRun {f : IntFormat} {n : Int} (fits : f.InRange n)
    (script : List (Calculation Int)) : ∀ e ∈ exactRun f n script, f.InRange e.state := by
  induction script generalizing n with
  | nil =>
    intro e he
    cases he
  | cons c rest ih =>
    intro e he
    have next := inRange_exactStep fits c
    rcases List.mem_cons.mp he with rfl | later
    · exact next
    · exact ih next e later

end Calculation

theorem FixedInt.neg_eq_owed {f : IntFormat} (a : FixedInt f) :
    a.neg.map toInt = Calculation.owedNegation f a.toInt := by
  unfold neg Calculation.owedNegation
  by_cases fits : f.InRange (-a.toInt)
  · rw [dif_pos fits, if_pos fits]
    rfl
  · rw [dif_neg fits, if_neg fits]
    rfl

def Nest.number {f : IntFormat} {tags : List Tag} (v : Nest tags (FixedInt f)) : Int :=
  (Nest.core tags v).toInt

namespace Wrapped

variable {tag : Tag} {f : IntFormat}

theorem entry_settle (w : Wrapped tag (FixedInt f)) (x : Except Fault (FixedInt f)) :
    Entry.along FixedInt.toInt
        ⟨(settle w (some (x.map Wrapped.mk))).1, (settle w (some (x.map Wrapped.mk))).2.value⟩ =
      Calculation.exactEntry w.value.toInt (x.map FixedInt.toInt) := by
  cases x <;> rfl

theorem perform_calculation (named : tag.name?.isSome = true) (w : Wrapped tag (FixedInt f))
    (c : Calculation (FixedInt f)) :
    Entry.along FixedInt.toInt
        ⟨(perform (Interface.integer f) w c.step).1,
          (perform (Interface.integer f) w c.step).2.value⟩ =
      Calculation.exactStep f w.value.toInt (c.along FixedInt.toInt) := by
  obtain ⟨name, named⟩ := Option.isSome_iff_exists.mp named
  cases c with
  | operate op rhs =>
    simp only [Calculation.step, perform_operate named]
    rw [entry_settle, FixedInt.apply_eq_owed, ← Operand.contribution_along FixedInt.toInt]
    rfl
  | compound op rhs =>
    simp only [Calculation.step, perform_compound named]
    rw [entry_settle, FixedInt.apply_eq_owed, ← Operand.contribution_along FixedInt.toInt]
    rfl
  | negate =>
    simp only [Calculation.step, perform_negate named, Calculation.along, Calculation.exactStep]
    split
    · rw [entry_settle, FixedInt.neg_eq_owed]
    · rfl

theorem run_calculations (named : tag.name?.isSome = true) (w : Wrapped tag (FixedInt f))
    (script : List (Calculation (FixedInt f))) :
    (run (Interface.integer f) w (script.map Calculation.step)).map (Entry.along FixedInt.toInt) =
      Calculation.exactRun f w.value.toInt (script.map (Calculation.along FixedInt.toInt)) := by
  -- After every step the calculator stands at the number in the wrapper.
  induction script generalizing w with
  | nil => rfl
  | cons c rest ih =>
    have here := perform_calculation named w c
    have later := ih (perform (Interface.integer f) w c.step).2
    have state := congrArg Entry.state here
    simp only [Entry.along] at state
    simp only [List.map_cons, run, Calculation.exactRun, here]
    rw [later, state]

/-- A run of calculations on a wrapper, or on wrappers inside wrappers, leaves the
transcript of the exact calculator, and never a state out of range. -/
theorem run_eq_exactRun (f : IntFormat) (tag : Tag) (tags : List Tag)
    (named : ∀ t ∈ tag :: tags, t.name?.isSome = true) (w : Wrapped tag (Nest tags (FixedInt f)))
    (script : List (Calculation (Nest tags (FixedInt f)))) :
    (run ((Interface.integer f).nest tags) w (script.map Calculation.step)).map
          (Entry.along Nest.number) =
        Calculation.exactRun f w.value.number (script.map (Calculation.along Nest.number)) ∧
      ∀ e ∈ Calculation.exactRun f w.value.number (script.map (Calculation.along Nest.number)),
        f.InRange e.state := by
  refine ⟨?_, Calculation.inRange_exactRun (Nest.core tags w.value).inRange _⟩
  have inner : ∀ t ∈ tags, t.name?.isSome = true := fun t ht => named t (List.mem_cons_of_mem _ ht)
  have through := run_nest tag (Interface.integer f) inner w (script.map Calculation.step)
    (List.forall_mem_map.mpr fun c _ => c.showsNoName_step)
    (List.forall_mem_map.mpr fun c _ => c.reachesCore_step)
  have core := run_calculations (named tag List.mem_cons_self)
    (⟨Nest.core tags w.value⟩ : Wrapped tag (FixedInt f))
    (script.map (Calculation.along (Nest.core tags)))
  calc (run ((Interface.integer f).nest tags) w (script.map Calculation.step)).map
        (Entry.along Nest.number)
    _ = ((run ((Interface.integer f).nest tags) w (script.map Calculation.step)).map
          (Entry.along (Nest.core tags))).map (Entry.along FixedInt.toInt) := by
      rw [List.map_map]
      exact List.map_congr_left fun e _ =>
        (Entry.along_along FixedInt.toInt (Nest.core tags) e).symm
    _ = (run (Interface.integer f) ⟨Nest.core tags w.value⟩
          ((script.map (Calculation.along (Nest.core tags))).map Calculation.step)).map
            (Entry.along FixedInt.toInt) := by
      rw [← Calculation.map_step_along, ← through]
    _ = Calculation.exactRun f w.value.number
          ((script.map (Calculation.along (Nest.core tags))).map
            (Calculation.along FixedInt.toInt)) := core
    _ = Calculation.exactRun f w.value.number (script.map (Calculation.along Nest.number)) := by
      rw [List.map_map]
      exact congrArg _ (List.map_congr_left fun c _ =>
        Calculation.along_along FixedInt.toInt (Nest.core tags) c)

theorem run_eq_exactRun_least :
    (∀ t ∈ [Catalogue.outerTag, Catalogue.meterTag], t.name?.isSome = true) ∧
      (run ((Interface.integer .int32).nest [Catalogue.meterTag])
          (⟨⟨FixedInt.least .int32⟩⟩ : Wrapped Catalogue.outerTag _)
          ([.operate .rem (.bare ⟨⟨-1, by decide, by decide⟩⟩),
            .compound .div (.wrapped ⟨FixedInt.zero .int32⟩), .negate,
            .compound .sub (.bare ⟨FixedInt.one .int32⟩),
            .operate .add (.wrapped ⟨FixedInt.one .int32⟩),
            .compound .rem .itself].map Calculation.step)).map (Entry.along Nest.number) =
        [⟨.fault (.overflow .rem), -2147483648⟩, ⟨.fault .divisionByZero, -2147483648⟩,
          ⟨.fault .negationOverflow, -2147483648⟩, ⟨.fault (.overflow .sub), -2147483648⟩,
          ⟨.done .nothing, -2147483647⟩, ⟨.done .nothing, 0⟩] := by
  have named : ∀ t ∈ [Catalogue.outerTag, Catalogue.meterTag], t.name?.isSome = true := by decide
  exact ⟨named, (run_eq_exactRun .int32 _ _ named _ _).1.trans rfl⟩

end Wrapped

end Nominal
