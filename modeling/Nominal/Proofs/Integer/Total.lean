import Nominal.Proofs.Integer.Plain
import Nominal.Proofs.Total

/-! Totals of integers that stop at the bounds. A sum or a product passes through the
totals of all prefixes of a list, so these decide whether it comes to an answer, and the
total of the whole list does not. The answer itself depends on the items alone. -/

namespace Nominal

variable {V : Type} {A : Arithmetic V} {f : IntFormat} {number : V → Int}

/-- Whether the totals of all prefixes are in range. -/
def Total.Stays (t : Total) (f : IntFormat) (ns : List Int) : Prop :=
  ∀ p, p <+: ns → f.InRange (t.exact p)

namespace Arithmetic.IsPlain

section Fold

variable (plain : A.IsPlain f number) {op : Operator} (ring : ¬ op.Divides)
include plain ring

theorem exists_foldlM {vs : List V} {a : V}
    (stays : ∀ p, p <+: vs.map number → f.InRange (p.foldl op.exact (number a))) :
    ∃ v, vs.foldlM (A.apply op) a = .ok v ∧
      number v = (vs.map number).foldl op.exact (number a) := by
  -- After every item the total stands for the exact fold of the prefix, which stays in range.
  induction vs generalizing a with
  | nil => exact ⟨a, rfl, rfl⟩
  | cons x rest ih =>
    have first : [number x] <+: number x :: rest.map number := ⟨rest.map number, rfl⟩
    obtain ⟨b, made, there⟩ := plain.exists_apply ring (stays [number x] first)
    have onward : ∀ p, p <+: rest.map number → f.InRange (p.foldl op.exact (number b)) := by
      intro p before
      rw [there]
      exact stays (number x :: p) (List.cons_prefix_cons.mpr ⟨rfl, before⟩)
    obtain ⟨v, total, same⟩ := ih onward
    refine ⟨v, ?_, ?_⟩
    · rw [List.foldlM_cons, made]
      exact total
    · rw [same, there]
      rfl

theorem foldlM_of_not_inRange {vs : List V} {a : V} {p : List Int} (before : p <+: vs.map number)
    (leaves : ¬ f.InRange (p.foldl op.exact (number a))) :
    vs.foldlM (A.apply op) a = .error (.overflow op) := by
  -- An item before the end of the prefix may already be the one that leaves the range.
  induction vs generalizing a p with
  | nil =>
    have none : p = [] := List.prefix_nil.mp before
    subst none
    exact absurd (plain.inRange a) leaves
  | cons x rest ih =>
    rw [List.foldlM_cons]
    by_cases fits : f.InRange (op.exact (number a) (number x))
    · obtain ⟨b, made, there⟩ := plain.exists_apply ring fits
      rw [made]
      rcases List.prefix_cons_iff.mp before with rfl | ⟨q, rfl, later⟩
      · exact absurd (plain.inRange a) leaves
      · apply ih later
        rw [there]
        exact leaves
    · rw [plain.apply_of_not_inRange ring fits]
      rfl

end Fold

variable (plain : A.IsPlain f number)
include plain

theorem number_start (t : Total) : number (A.start t) = t.exact [] := by
  cases t with
  | sum => exact plain.zero
  | product => exact plain.one

theorem exists_total {t : Total} {vs : List V} (stays : t.Stays f (vs.map number)) :
    ∃ v, A.total t vs = .ok v ∧ number v = t.exact (vs.map number) := by
  have begins := plain.number_start t
  obtain ⟨v, total, same⟩ := plain.exists_foldlM t.not_divides (a := A.start t) fun p before => by
    rw [begins, t.foldl_exact]
    exact stays p before
  rw [begins, t.foldl_exact] at same
  exact ⟨v, total, same⟩

theorem total_eq_error {t : Total} {vs : List V} (leaves : ¬ t.Stays f (vs.map number)) :
    A.total t vs = .error (.overflow t.operator) := by
  simp only [Total.Stays, not_forall] at leaves
  obtain ⟨p, before, outside⟩ := leaves
  apply plain.foldlM_of_not_inRange t.not_divides before
  rw [plain.number_start, t.foldl_exact]
  exact outside

theorem total_eq_error_iff (t : Total) (vs : List V) :
    A.total t vs = .error (.overflow t.operator) ↔ ¬ t.Stays f (vs.map number) := by
  constructor
  · intro stopped stays
    obtain ⟨v, total, -⟩ := plain.exists_total stays
    rw [stopped] at total
    cases total
  · exact plain.total_eq_error

theorem number_of_total {t : Total} {vs : List V} {v : V} (total : A.total t vs = .ok v) :
    number v = t.exact (vs.map number) := by
  by_cases stays : t.Stays f (vs.map number)
  · obtain ⟨u, reached, same⟩ := plain.exists_total stays
    rw [total] at reached
    cases reached
    exact same
  · rw [plain.total_eq_error stays] at total
    cases total

theorem total_perm {t : Total} {vs vs' : List V} (rearranged : vs.Perm vs') {v v' : V}
    (total : A.total t vs = .ok v) (total' : A.total t vs' = .ok v') : v = v' := by
  have items := t.exact_perm (rearranged.map number)
  apply plain.injective
  rw [plain.number_of_total total, plain.number_of_total total', items]

end Arithmetic.IsPlain

namespace Total

theorem Stays.of_append {t : Total} {ns rest : List Int} (stays : t.Stays f (ns ++ rest)) :
    t.Stays f ns :=
  fun p before => stays p (before.trans (List.prefix_append ns rest))

theorem Stays.append_zero {ns : List Int} (stays : product.Stays f ns) (rest : List Int)
    (zero : f.InRange 0) : product.Stays f (ns ++ 0 :: rest) := by
  intro p before
  rcases List.prefix_or_prefix_of_prefix before (List.prefix_append ns (0 :: rest)) with
    inside | ⟨q, rfl⟩
  · exact stays p inside
  · rcases List.prefix_cons_iff.mp ((List.prefix_append_right_inj ns).mp before) with
      rfl | ⟨r, rfl, -⟩
    · rw [List.append_nil]
      exact stays ns (List.prefix_refl ns)
    · have nothing : product.exact (ns ++ 0 :: r) = 0 := by
        simp [exact]
      rw [nothing]
      exact zero

end Total

namespace Wrapped

section Plain

variable {tag : Tag} {I : Interface V} (totals : I.Totals A) (plain : A.IsPlain f number)
  (named : tag.name?.isSome = true)
include totals plain named

theorem performList_total_fault_iff (t : Total) (ws : List (Wrapped tag V)) :
    (performList I ws t.step).1 = .fault (.overflow t.operator) ↔
      ¬ t.Stays f (ws.map fun w => number w.value) := by
  have numbers : (ws.map value).map number = ws.map fun w => number w.value := List.map_map
  rw [performList_total totals named, Total.reply_eq_fault_iff, plain.total_eq_error_iff, numbers]

theorem exists_performList_total {t : Total} {ws : List (Wrapped tag V)}
    (stays : t.Stays f (ws.map fun w => number w.value)) :
    ∃ v, (performList I ws t.step).1 = .done (.total v) ∧
      number v = t.exact (ws.map fun w => number w.value) := by
  have numbers : (ws.map value).map number = ws.map fun w => number w.value := List.map_map
  rw [← numbers] at stays ⊢
  obtain ⟨v, total, same⟩ := plain.exists_total stays
  rw [performList_total totals named, total]
  exact ⟨v, rfl, same⟩

theorem performList_total_perm {t : Total} {ws ws' : List (Wrapped tag V)}
    (rearranged : ws.Perm ws') {v v' : V} (total : (performList I ws t.step).1 = .done (.total v))
    (total' : (performList I ws' t.step).1 = .done (.total v')) : v = v' := by
  rw [performList_total totals named, Total.reply_eq_done_iff] at total total'
  exact plain.total_perm (rearranged.map value) total total'

theorem performList_total_append {t : Total} {ws : List (Wrapped tag V)}
    (stopped : (performList I ws t.step).1 = .fault (.overflow t.operator))
    (rest : List (Wrapped tag V)) :
    (performList I (ws ++ rest) t.step).1 = .fault (.overflow t.operator) := by
  rw [performList_total_fault_iff totals plain named] at stopped ⊢
  intro stays
  rw [List.map_append] at stays
  exact stopped stays.of_append

theorem exists_performList_product {ws rest : List (Wrapped tag V)} {zero : Wrapped tag V}
    (nothing : number zero.value = 0)
    (stays : Total.product.Stays f (ws.map fun w => number w.value)) :
    ∃ v, (performList I (ws ++ zero :: rest) .product).1 = .done (.total v) ∧ number v = 0 := by
  have numbers : (ws ++ zero :: rest).map (fun w => number w.value) =
      ws.map (fun w => number w.value) ++ 0 :: rest.map fun w => number w.value := by
    rw [List.map_append, List.map_cons, nothing]
  have after : Total.product.Stays f ((ws ++ zero :: rest).map fun w => number w.value) := by
    rw [numbers]
    exact stays.append_zero _ (FixedInt.zero f).inRange
  obtain ⟨v, reached, same⟩ := exists_performList_total totals plain named after
  refine ⟨v, reached, ?_⟩
  rw [same, numbers]
  simp [Total.exact]

end Plain

/-- A total stops with a fault exactly where the total of some prefix is out of range, and is
exact otherwise. Two orders of a list that both have a total have the same one. No further item
undoes a fault, while a zero keeps the items after it from making one. -/
theorem total_eq_exact (f : IntFormat) (tag : Tag) (tags : List Tag)
    (named : ∀ t ∈ tag :: tags, t.name?.isSome = true) (t : Total)
    (ws : List (Wrapped tag (Nest tags (FixedInt f)))) :
    let I := (Interface.integer f).nest tags
    let total (t : Total) (ws : List (Wrapped tag (Nest tags (FixedInt f)))) :=
      (performList I ws t.step).1
    let numbers := ws.map fun w => w.value.number
    (total t ws = .fault (.overflow t.operator) ↔ ∃ p, p <+: numbers ∧ ¬ f.InRange (t.exact p)) ∧
      ((∀ p, p <+: numbers → f.InRange (t.exact p)) →
        ∃ v, total t ws = .done (.total v) ∧ v.number = t.exact numbers) ∧
      total t ws = totalByItems I t ws ∧
      performList I ws t.stepRef = performList I ws t.step ∧
      (∀ ws', ws.Perm ws' → ∀ v v', total t ws = .done (.total v) →
        total t ws' = .done (.total v') → v = v') ∧
      (∀ rest, total t ws = .fault (.overflow t.operator) →
        total t (ws ++ rest) = .fault (.overflow t.operator)) ∧
      ∀ zero rest, zero.value.number = 0 → (∀ p, p <+: numbers → f.InRange p.prod) →
        ∃ v, total .product (ws ++ zero :: rest) = .done (.total v) ∧ v.number = 0 := by
  intro I total numbers
  have head : tag.name?.isSome = true := named tag List.mem_cons_self
  have inner : ∀ t ∈ tags, t.name?.isSome = true := fun t ht => named t (List.mem_cons_of_mem _ ht)
  have plain := Arithmetic.IsPlain.nest f tags
  have totals := (Interface.totals_integer f).nest inner
  have computes := (Interface.computes_integer f).nest inner
  refine ⟨?_, ?_, ?_, ?_, ?_, ?_, ?_⟩
  · rw [performList_total_fault_iff totals plain head t ws]
    simp only [Total.Stays, not_forall, exists_prop]
    rfl
  · intro stays
    exact exists_performList_total totals plain head stays
  · calc total t ws
      _ = Total.reply (((Arithmetic.plain f).nest tags).total t (ws.map value)) :=
        congrArg Prod.fst (performList_total totals head t ws)
      _ = totalByItems I t ws := (totalByItems_eq computes head t ws).symm
  · rw [performList_total totals head, performList_totalRef totals head]
  · intro ws' rearranged v v' reached reached'
    exact performList_total_perm totals plain head rearranged reached reached'
  · intro rest stopped
    exact performList_total_append totals plain head stopped rest
  · intro zero rest nothing stays
    exact exists_performList_product totals plain head nothing stays

/-- A sum of a wrapper in a wrapper that overflows on the way to a total in range, and a
product that a zero saves or does not save. -/
theorem total_eq_exact_greatest :
    let I := (Interface.integer .int32).nest [Catalogue.meterTag]
    let item (n : Int) : Wrapped Catalogue.outerTag (Nest [Catalogue.meterTag] (FixedInt .int32)) :=
      ⟨⟨FixedInt.clamp .int32 n⟩⟩
    (∀ t ∈ [Catalogue.outerTag, Catalogue.meterTag], t.name?.isSome = true) ∧
      (performList I [item 2147483647, item 1, item (-1)] .sum).1 = .fault (.overflow .add) ∧
      (performList I [item 2147483647, item 2, item 0] .product).1 = .fault (.overflow .mul) ∧
      ∃ v, (performList I [item 0, item 2147483647, item 2] .product).1 = .done (.total v) ∧
        v.number = 0 := by
  intro I item
  have named : ∀ t ∈ [Catalogue.outerTag, Catalogue.meterTag], t.name?.isSome = true := by decide
  obtain ⟨sum, -⟩ := total_eq_exact .int32 _ _ named .sum
    [item 2147483647, item 1, item (-1)]
  obtain ⟨product, -⟩ := total_eq_exact .int32 _ _ named .product [item 2147483647, item 2, item 0]
  obtain ⟨-, -, -, -, -, -, saved⟩ := total_eq_exact .int32 _ _ named .product []
  refine ⟨named, sum.mpr ⟨[2147483647, 1], ⟨[-1], rfl⟩, by decide⟩,
    product.mpr ⟨[2147483647, 2], ⟨[0], rfl⟩, by decide⟩, ?_⟩
  apply saved (item 0) [item 2147483647, item 2] rfl
  intro p before
  rw [List.prefix_nil.mp before]
  decide

end Wrapped

end Nominal
