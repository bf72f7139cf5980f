import Mathlib.Data.List.ReduceOption
import Nominal.Catalogue
import Nominal.Proofs.Integer.Total

/-! Totals of numbers that may be absent. The list is gone through once, from left to right,
and the first event decides: an absent number makes the total absent, and a total out of range
is a fault. What stands after an absent number is never looked at, so it cannot overflow. -/

namespace Nominal

open Interface (presentValues totalOptions)

variable {V : Type} {A : Arithmetic V} {f : IntFormat} {number : V → Int}

/-- The total from a value on. The first absent value ends it, and so does the first fault. -/
def Arithmetic.pass (A : Arithmetic V) (t : Total) (v : V) : List (Option V) → Except Fault (Option V)
  | [] => .ok (some v)
  | none :: _ => .ok none
  | some x :: rest => match A.apply t.operator v x with
    | .ok next => pass A t next rest
    | .error fault => .error fault

namespace Arithmetic

theorem foldlM_presentValues (t : Total) (vs : List (Option V)) (v : V) :
    ((presentValues vs).foldlM (A.apply t.operator) v).map
        (fun total => if vs.all Option.isSome then some total else none) = A.pass t v vs := by
  induction vs generalizing v with
  | nil => rfl
  | cons v? rest ih =>
    cases v? with
    | none => rfl
    | some x =>
      simp only [presentValues, List.foldlM_cons, pass, List.all_cons, Option.isSome_some,
        Bool.true_and]
      cases A.apply t.operator v x with
      | ok next => exact ih next
      | error fault => rfl

theorem totalOptions_eq_pass (t : Total) (vs : List (Option V)) :
    totalOptions (A.total t) vs = A.pass t (A.start t) vs :=
  foldlM_presentValues t vs (A.start t)

theorem pass_append_none (t : Total) (v : V) (before after after' : List (Option V)) :
    A.pass t v (before ++ none :: after) = A.pass t v (before ++ none :: after') := by
  induction before generalizing v with
  | nil => rfl
  | cons v? rest ih =>
    cases v? with
    | none => rfl
    | some x =>
      simp only [List.cons_append, pass]
      cases A.apply t.operator v x with
      | ok next => exact ih next
      | error fault => rfl

end Arithmetic

theorem le_length_presentValues_iff (vs : List (Option V)) (n : Nat) :
    n ≤ (presentValues vs).length ↔ n ≤ vs.length ∧ none ∉ vs.take n := by
  induction vs generalizing n with
  | nil => simp [presentValues]
  | cons v? rest ih =>
    cases n with
    | zero => simp
    | succ n => cases v? <;> simp [presentValues, ih]

theorem take_presentValues (vs : List (Option V)) {n : Nat} (short : n ≤ (presentValues vs).length) :
    (presentValues vs).take n = (vs.take n).reduceOption := by
  induction vs generalizing n with
  | nil => simp [presentValues]
  | cons v? rest ih =>
    cases n with
    | zero => simp
    | succ n =>
      cases v? with
      | none => simp [presentValues] at short
      | some x => simp [presentValues, ih (show n ≤ _ by simpa [presentValues] using short)]

theorem presentValues_of_present {vs : List (Option V)} (present : none ∉ vs) :
    presentValues vs = vs.reduceOption := by
  induction vs with
  | nil => rfl
  | cons v? rest ih =>
    cases v? with
    | none => exact absurd List.mem_cons_self present
    | some x => simp [presentValues, ih fun later => present (List.mem_cons_of_mem _ later)]

theorem presentValues_map {W : Type} (g : V → W) (vs : List (Option V)) :
    presentValues (vs.map (Option.map g)) = (presentValues vs).map g := by
  induction vs with
  | nil => rfl
  | cons v? rest ih => cases v? <;> simp [presentValues, ih]

theorem all_isSome_iff (vs : List (Option V)) : vs.all Option.isSome = true ↔ none ∉ vs := by
  induction vs with
  | nil => simp
  | cons v? rest ih => cases v? <;> simp [ih]

namespace Total

/-- Whether the total of the numbers up to a place is out of range, and none of them absent. -/
def LeavesAt (t : Total) (f : IntFormat) (ns : List (Option Int)) (i : Nat) : Prop :=
  i < ns.length ∧ none ∉ ns.take (i + 1) ∧ ¬ f.InRange (t.exact (ns.take (i + 1)).reduceOption)

theorem exists_leavesAt_iff {t : Total} (starts : f.InRange (t.exact [])) (ns : List (Option Int)) :
    (∃ i, t.LeavesAt f ns i) ↔ ¬ t.Stays f (presentValues ns) := by
  simp only [Stays, not_forall]
  constructor
  · rintro ⟨i, inside, present, leaves⟩
    have short := (le_length_presentValues_iff ns (i + 1)).mpr ⟨inside, present⟩
    rw [← take_presentValues ns short] at leaves
    exact ⟨_, List.take_prefix _ _, leaves⟩
  · rintro ⟨p, before, leaves⟩
    rw [List.prefix_iff_eq_take] at before
    cases size : p.length with
    | zero =>
      rw [List.length_eq_zero_iff.mp size] at leaves
      exact absurd starts leaves
    | succ i =>
      have short : i + 1 ≤ (presentValues ns).length := by
        have := congrArg List.length before
        rw [List.length_take] at this
        omega
      rw [size, take_presentValues ns short] at before
      obtain ⟨inside, present⟩ := (le_length_presentValues_iff ns (i + 1)).mp short
      exact ⟨i, inside, present, before ▸ leaves⟩

end Total

namespace Arithmetic.IsPlain

variable (plain : A.IsPlain f number)
include plain

theorem stays_presentValues_iff (t : Total) (vs : List (Option V)) :
    t.Stays f ((presentValues vs).map number) ↔
      ¬ ∃ i, t.LeavesAt f (vs.map (Option.map number)) i := by
  have starts : f.InRange (t.exact []) := by
    rw [← plain.number_start]
    exact plain.inRange _
  rw [Total.exists_leavesAt_iff starts, presentValues_map, not_not]

theorem pass_eq_error_iff (t : Total) (vs : List (Option V)) :
    A.pass t (A.start t) vs = .error (.overflow t.operator) ↔
      ∃ i, t.LeavesAt f (vs.map (Option.map number)) i := by
  rw [← totalOptions_eq_pass, totalOptions]
  constructor
  · intro stopped
    by_contra none
    obtain ⟨v, total, -⟩ := plain.exists_total ((plain.stays_presentValues_iff t vs).mpr none)
    rw [total] at stopped
    cases stopped
  · intro leaves
    rw [plain.total_eq_error fun stays => (plain.stays_presentValues_iff t vs).mp stays leaves]
    rfl

theorem pass_of_stays {t : Total} {vs : List (Option V)}
    (stays : ¬ ∃ i, t.LeavesAt f (vs.map (Option.map number)) i) :
    (none ∈ vs → A.pass t (A.start t) vs = .ok none) ∧
      (none ∉ vs → ∃ v, A.pass t (A.start t) vs = .ok (some v) ∧
        number v = t.exact (vs.map (Option.map number)).reduceOption) := by
  obtain ⟨v, total, exact⟩ := plain.exists_total ((plain.stays_presentValues_iff t vs).mpr stays)
  rw [← totalOptions_eq_pass, totalOptions, total]
  constructor
  · intro absent
    have some : ¬ vs.all Option.isSome = true := fun all => (all_isSome_iff vs).mp all absent
    exact congrArg Except.ok (if_neg some)
  · intro present
    refine ⟨v, congrArg Except.ok (if_pos ((all_isSome_iff vs).mpr present)), ?_⟩
    rw [exact, presentValues_of_present present, List.reduceOption_map]

end Arithmetic.IsPlain

namespace Wrapped

variable {tag : Tag} {I : Interface V}

theorem performList_option_total (totals : I.Totals A) (named : tag.name?.isSome = true) (t : Total)
    (ws : List (Wrapped tag (Option V))) :
    performList I.option ws t.step = (Total.reply (A.pass t (A.start t) (ws.map value)), ws) := by
  obtain ⟨name, named⟩ := Option.isSome_iff_exists.mp named
  have handed {total? : Option (List V → Except Fault V)} (has : total? = some (A.total t)) :
      totalise ws (tag.forward (total?.map totalOptions) fun _ => gather) =
        (Total.reply (A.pass t (A.start t) (ws.map value)), ws) := by
    rw [has, Option.map_some, Tag.forward_named named, totalise_gather,
      Arithmetic.totalOptions_eq_pass]
  cases t with
  | sum => exact handed (totals.owned .sum)
  | product => exact handed (totals.owned .product)

/-- Where the numbers up to some place are all present and their total is out of range, a total
stops with a fault. Otherwise it is absent if any of the numbers is, and exact if none is. -/
theorem total_first_event (f : IntFormat) (tag : Tag) (named : tag.name?.isSome = true) (t : Total)
    (ws : List (Wrapped tag (Option (FixedInt f)))) :
    let I := (Interface.integer f).option
    let numbers := ws.map fun w => w.value.map FixedInt.toInt
    ((∃ i, t.LeavesAt f numbers i) ↔
        performList I ws t.step = (.fault (.overflow t.operator), ws)) ∧
      ((¬ ∃ i, t.LeavesAt f numbers i) →
        (none ∈ numbers → performList I ws t.step = (.done (.total none), ws)) ∧
        (none ∉ numbers → ∃ v, performList I ws t.step = (.done (.total (some v)), ws) ∧
          v.toInt = t.exact numbers.reduceOption)) ∧
      (performList I ws t.step).1 =
        Total.reply ((Arithmetic.plain f).pass t ((Arithmetic.plain f).start t) (ws.map value)) ∧
      ∀ before after after' : List (Wrapped tag (Option (FixedInt f))),
        (performList I (before ++ ⟨none⟩ :: after) t.step).1 =
          (performList I (before ++ ⟨none⟩ :: after') t.step).1 := by
  intro I numbers
  have plain := Arithmetic.IsPlain.ofFormat f
  have outcome := performList_option_total (Interface.totals_integer f) named t
  have carried : numbers = (ws.map value).map (Option.map FixedInt.toInt) := by
    simp only [numbers, List.map_map]
    rfl
  have absent_iff : none ∈ numbers ↔ none ∈ ws.map value := by
    rw [carried]
    simp
  -- Every part is a fact about the one pass that the outcome comes down to.
  refine ⟨?_, fun stays => ?_, congrArg Prod.fst (outcome ws), fun before after after' => ?_⟩
  · rw [carried, ← plain.pass_eq_error_iff t (ws.map value), outcome ws, Prod.mk.injEq,
      Total.reply_eq_fault_iff]
    exact (and_iff_left rfl).symm
  · rw [carried] at stays
    obtain ⟨absent, present⟩ := plain.pass_of_stays stays
    constructor
    · intro has
      rw [outcome ws, absent (absent_iff.mp has)]
      rfl
    · intro lacks
      obtain ⟨v, total, exact⟩ := present fun has => lacks (absent_iff.mpr has)
      refine ⟨v, ?_, ?_⟩
      · rw [outcome ws, total]
        rfl
      · rw [carried]
        exact exact
  · rw [outcome, outcome, List.map_append, List.map_append, List.map_cons, List.map_cons,
      Arithmetic.pass_append_none]

theorem total_first_event_maybe :
    let number (n : Int) : Wrapped (Tag.named "Maybe") (Option (FixedInt .int32)) :=
      ⟨some (FixedInt.clamp .int32 n)⟩
    let early := [number 2147483647, number 1, number (-1), ⟨none⟩]
    let late := [number 2147483647, ⟨none⟩, number 1]
    let I := (Interface.integer .int32).option
    (Tag.named "Maybe").name?.isSome = true ∧
      performList I early .sum = (.fault (.overflow .add), early) ∧
      (performList I late .sum).1 = .done (.total none) ∧
      ∃ v, performList I [number 65536, number (-32768)] .product =
          (.done (.total (some v)), [number 65536, number (-32768)]) ∧ v.toInt = -2147483648 := by
  intro number early late I
  have named : (Tag.named "Maybe").name?.isSome = true := by decide
  obtain ⟨stops, -⟩ := total_first_event .int32 _ named .sum early
  obtain ⟨-, -, -, ignores⟩ := total_first_event .int32 (Tag.named "Maybe") named .sum []
  obtain ⟨leaves, goes, -⟩ := total_first_event .int32 _ named .product
    [number 65536, number (-32768)]
  refine ⟨named, stops.mp ⟨1, by decide, by decide, by decide⟩, ?_, ?_⟩
  · exact ignores [number 2147483647] [number 1] []
  · refine (goes fun stopped => ?_).2 (by decide)
    have outcome := leaves.mp stopped
    cases congrArg Prod.fst outcome

end Wrapped

end Nominal
