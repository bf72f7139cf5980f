import Nominal.Proofs.Capability
import Nominal.Proofs.Interface.Order

/-! Comparisons of a wrapper. Where a wrapper has an order, the order is total and tells
exactly the equal values apart from the others, and every step that compares goes by it, in
both shapes of the operand. The maximum and the minimum are the join and the meet of the
order, and to move a value into an interval is to take one after the other. -/

namespace Nominal

variable {V : Type}

def Relation.holds (o : Ordering) : Relation → Bool
  | .eq => o.isEq
  | .ne => o.isNe
  | .lt => o.isLT
  | .le => o.isLE
  | .gt => o.isGT
  | .ge => o.isGE

theorem Relation.decide?_some (r : Relation) (o : Ordering) :
    r.decide? (some o.isEq) (some (some o)) = some (r.holds o) := by
  cases r <;> cases o <;> rfl

theorem Relation.exists_only (o : Ordering) :
    ∃ r ∈ [Relation.lt, .eq, .gt], r.holds o = true ∧
      ∀ r' ∈ [Relation.lt, .eq, .gt], r' ≠ r → r'.holds o = false := by
  cases o with
  | lt => exact ⟨.lt, by decide⟩
  | eq => exact ⟨.eq, by decide⟩
  | gt => exact ⟨.gt, by decide⟩

theorem Ty.exists_order_wrapped {tag : Tag} {inner : Ty}
    (ordered : Capability.ord ∈ (Ty.wrapped tag inner).capabilities) :
    ∃ name compare, tag.name? = some name ∧ inner.interface.compare? = some compare ∧
      Std.TransCmp (fun a b : Wrapped tag inner.Carrier => compare a.value b.value) ∧
      Std.LawfulEqCmp (fun a b : Wrapped tag inner.Carrier => compare a.value b.value) ∧
      inner.interface.partialCompare? = some (fun a b => some (compare a b)) ∧
      inner.interface.equal? = some fun a b => (compare a b).isEq := by
  obtain ⟨named, has⟩ := (Interface.mem_capabilities_wrapped_iff tag inner rfl).mp ordered
  obtain ⟨name, named⟩ := Option.isSome_iff_exists.mp named
  obtain ⟨compare, total, transitive, lawful, partially, equal⟩ := inner.exists_order has
  exact ⟨name, compare, named, total, transCmp_of_key transitive Wrapped.value,
    lawfulEqCmp_of_key lawful fun _ _ => Wrapped.ext, partially, equal⟩

namespace Wrapped

variable {tag : Tag}

section Bounds

variable {compare : Wrapped tag V → Wrapped tag V → Ordering}

theorem isLE_of_not_lt (oriented : Std.OrientedCmp compare) {a b : Wrapped tag V}
    (high : compare b a ≠ .lt) : (compare a b).isLE = true := by
  rw [oriented.eq_swap]
  cases found : compare b a with
  | lt => exact absurd found high
  | eq => rfl
  | gt => rfl

theorem extremum_max (a b : Wrapped tag V) :
    extremum compare a b .max = if compare b a = .lt then a else b := rfl

theorem extremum_min (a b : Wrapped tag V) :
    extremum compare a b .min = if compare b a = .lt then b else a := rfl

theorem extremum_max_isLE_iff (order : Std.TransCmp compare) (a b u : Wrapped tag V) :
    (compare (extremum compare a b .max) u).isLE = true ↔
      (compare a u).isLE = true ∧ (compare b u).isLE = true := by
  rw [extremum_max]
  split
  · rename_i below
    have low : (compare b a).isLE = true := by rw [below]; rfl
    exact ⟨fun high => ⟨high, order.isLE_trans low high⟩, And.left⟩
  · rename_i above
    have low := isLE_of_not_lt order.toOrientedCmp above
    exact ⟨fun high => ⟨order.isLE_trans low high, high⟩, And.right⟩

theorem isLE_extremum_min_iff (order : Std.TransCmp compare) (a b u : Wrapped tag V) :
    (compare u (extremum compare a b .min)).isLE = true ↔
      (compare u a).isLE = true ∧ (compare u b).isLE = true := by
  rw [extremum_min]
  split
  · rename_i below
    have high : (compare b a).isLE = true := by rw [below]; rfl
    exact ⟨fun low => ⟨order.isLE_trans low high, low⟩, And.right⟩
  · rename_i above
    have high := isLE_of_not_lt order.toOrientedCmp above
    exact ⟨fun low => ⟨low, order.isLE_trans low high⟩, And.left⟩

theorem extremum_mono (order : Std.TransCmp compare) (e : Extremum) (b : Wrapped tag V)
    {a a' : Wrapped tag V} (less : (compare a a').isLE = true) :
    (compare (extremum compare a b e) (extremum compare a' b e)).isLE = true := by
  have refl (u : Wrapped tag V) : (compare u u).isLE = true := Std.ReflCmp.isLE_rfl
  cases e with
  | max =>
    obtain ⟨above, other⟩ := (extremum_max_isLE_iff order a' b _).mp (refl _)
    exact (extremum_max_isLE_iff order a b _).mpr ⟨order.isLE_trans less above, other⟩
  | min =>
    obtain ⟨below, other⟩ := (isLE_extremum_min_iff order a b _).mp (refl _)
    exact (isLE_extremum_min_iff order a' b _).mpr ⟨order.isLE_trans below less, other⟩

theorem extremum_max_eq_left (lawful : Std.LawfulEqCmp compare) {a b : Wrapped tag V}
    (below : (compare b a).isLE = true) : extremum compare a b .max = a := by
  rw [extremum_max]
  rcases Ordering.isLE_iff_eq_lt_or_eq_eq.mp below with less | same
  · rw [if_pos less]
  · rw [lawful.eq_of_compare same, ite_self]

theorem extremum_min_eq_left (oriented : Std.OrientedCmp compare) {a b : Wrapped tag V}
    (below : (compare a b).isLE = true) : extremum compare a b .min = a := by
  rw [extremum_min, if_neg]
  intro less
  rw [oriented.eq_swap, less] at below
  cases below

/-- The maximum with the lower end of an interval, and then the minimum with the upper end. -/
def within (compare : Wrapped tag V → Wrapped tag V → Ordering) (low high w : Wrapped tag V) :
    Wrapped tag V :=
  extremum compare (extremum compare w low .max) high .min

theorem clamp_eq_within (order : Std.TransCmp compare) (lawful : Std.LawfulEqCmp compare)
    {low high : Wrapped tag V} (ends : (compare low high).isLE = true) (w : Wrapped tag V) :
    clamp compare low high w = .ok (within compare low high w) := by
  have straight : compare low high ≠ .gt := by
    intro crossed
    rw [crossed] at ends
    cases ends
  rw [clamp, if_neg straight, within]
  by_cases below : compare w low = .lt
  · have above : compare low w ≠ .lt := by
      rw [order.eq_swap, below]
      decide
    rw [if_pos below, extremum_max, if_neg above, extremum_min_eq_left order.toOrientedCmp ends]
  · rw [if_neg below, extremum_max_eq_left lawful (isLE_of_not_lt order.toOrientedCmp below),
      extremum_min, order.eq_swap]
    cases compare high w <;> rfl

theorem within_inside (order : Std.TransCmp compare) {low high : Wrapped tag V}
    (ends : (compare low high).isLE = true) (w : Wrapped tag V) :
    (compare low (within compare low high w)).isLE = true ∧
      (compare (within compare low high w) high).isLE = true := by
  have refl (u : Wrapped tag V) : (compare u u).isLE = true := Std.ReflCmp.isLE_rfl
  constructor
  · refine (isLE_extremum_min_iff order _ high low).mpr ⟨?_, ends⟩
    exact ((extremum_max_isLE_iff order w low _).mp (refl _)).2
  · exact ((isLE_extremum_min_iff order _ high _).mp (refl _)).2

theorem within_eq_self_iff (order : Std.TransCmp compare) (lawful : Std.LawfulEqCmp compare)
    {low high : Wrapped tag V} (ends : (compare low high).isLE = true) (w : Wrapped tag V) :
    within compare low high w = w ↔
      (compare low w).isLE = true ∧ (compare w high).isLE = true := by
  constructor
  · intro same
    have inside := within_inside order ends w
    rwa [same] at inside
  · rintro ⟨above, below⟩
    rw [within, extremum_max_eq_left lawful above, extremum_min_eq_left order.toOrientedCmp below]

theorem within_mono (order : Std.TransCmp compare) (low high : Wrapped tag V)
    {w w' : Wrapped tag V} (less : (compare w w').isLE = true) :
    (compare (within compare low high w) (within compare low high w')).isLE = true :=
  extremum_mono order .min high (extremum_mono order .max low less)

end Bounds

section Steps

variable (I : Interface V) (compare : Wrapped tag V → Wrapped tag V → Ordering)
  (join meet : Wrapped tag V → Wrapped tag V → Wrapped tag V)

/-- The steps that compare go by one order, whatever the shape of the operand. -/
structure ComparesBy : Prop where
  order : ∀ w v, perform I w (.compare v) = answer (.ordering (some (compare w ⟨v⟩))) w
  partially : ∀ w rhs, perform I w (.partialCompare rhs) =
    answer (.ordering (some (compare w ⟨rhs.contribution w.value⟩))) w
  relation : ∀ w r rhs, perform I w (.relate r rhs) =
    answer (.truth (r.holds (compare w ⟨rhs.contribution w.value⟩))) w
  one : ∀ (w : Wrapped tag V) rhs, ∃ r ∈ [Relation.lt, .eq, .gt],
    perform I w (.relate r rhs) = answer (.truth true) w ∧
      ∀ r' ∈ [Relation.lt, .eq, .gt], r' ≠ r →
        perform I w (.relate r' rhs) = answer (.truth false) w

structure BoundsBy : Prop where
  max : ∀ w v, perform I w (.extremum .max v) = answer .nothing (join w ⟨v⟩)
  min : ∀ w v, perform I w (.extremum .min v) = answer .nothing (meet w ⟨v⟩)
  least : ∀ a b u, (compare (join a b) u).isLE = true ↔
    (compare a u).isLE = true ∧ (compare b u).isLE = true
  greatest : ∀ a b u, (compare u (meet a b)).isLE = true ↔
    (compare u a).isLE = true ∧ (compare u b).isLE = true

/-- Moving into an interval takes a maximum and then a minimum, and is a monotone projection
onto the interval. -/
structure ClampsBy (low high : V) (within : Wrapped tag V → Wrapped tag V) : Prop where
  clamp : ∀ w, perform I w (.clamp low high) = answer .nothing (within w)
  composed : ∀ w, within w = meet (join w ⟨low⟩) ⟨high⟩
  inside : ∀ w, (compare ⟨low⟩ (within w)).isLE = true ∧ (compare (within w) ⟨high⟩).isLE = true
  eq_self_iff : ∀ w, within w = w ↔
    (compare ⟨low⟩ w).isLE = true ∧ (compare w ⟨high⟩).isLE = true
  idempotent : ∀ w, within (within w) = within w
  monotone : ∀ w w', (compare w w').isLE = true → (compare (within w) (within w')).isLE = true

end Steps

section Named

variable {I : Interface V} {compare : V → V → Ordering} {name : Text}

theorem comparesBy (named : tag.name? = some name) (total : I.compare? = some compare)
    (partially : I.partialCompare? = some fun a b => some (compare a b))
    (equal : I.equal? = some fun a b => (compare a b).isEq) :
    ComparesBy I fun a b : Wrapped tag V => compare a.value b.value := by
  have relation (w : Wrapped tag V) (r : Relation) (rhs : Operand V) :
      perform I w (.relate r rhs) =
        answer (.truth (r.holds (compare w.value (rhs.contribution w.value)))) w := by
    simp only [perform, equal?_eq, partialCompare?_eq, partially, equal, Tag.forward_named named,
      Relation.decide?_some]
    rfl
  refine ⟨fun w v => ?_, fun w rhs => ?_, relation, fun w rhs => ?_⟩
  · simp only [perform, Interface.wrap, total, Tag.forward_named named]
    rfl
  · simp only [perform, partialCompare?_eq, partially, Tag.forward_named named]
    rfl
  · obtain ⟨r, mem, holds, others⟩ :=
      Relation.exists_only (compare w.value (rhs.contribution w.value))
    refine ⟨r, mem, by rw [relation, holds], fun r' mem' other => ?_⟩
    rw [relation, others r' mem' other]

theorem boundsBy (named : tag.name? = some name) (total : I.compare? = some compare)
    (order : Std.TransCmp fun a b : Wrapped tag V => compare a.value b.value) :
    BoundsBy I (fun a b : Wrapped tag V => compare a.value b.value)
      (fun a b => extremum (fun a b => compare a.value b.value) a b .max)
      (fun a b => extremum (fun a b => compare a.value b.value) a b .min) := by
  refine ⟨fun w v => ?_, fun w v => ?_, extremum_max_isLE_iff order,
    fun a b u => isLE_extremum_min_iff order a b u⟩
  · simp only [perform, Interface.wrap, total, Tag.forward_named named]
    rfl
  · simp only [perform, Interface.wrap, total, Tag.forward_named named]
    rfl

theorem clampsBy (named : tag.name? = some name) (total : I.compare? = some compare)
    (order : Std.TransCmp fun a b : Wrapped tag V => compare a.value b.value)
    (lawful : Std.LawfulEqCmp fun a b : Wrapped tag V => compare a.value b.value)
    {low high : V} (ends : (compare low high).isLE = true) :
    ClampsBy I (fun a b : Wrapped tag V => compare a.value b.value)
      (fun a b => extremum (fun a b => compare a.value b.value) a b .max)
      (fun a b => extremum (fun a b => compare a.value b.value) a b .min) low high
      (within (fun a b => compare a.value b.value) ⟨low⟩ ⟨high⟩) where
  clamp w := by
    have moved : clamp (fun a b => compare a.value b.value) ⟨low⟩ ⟨high⟩ w = .ok _ :=
      clamp_eq_within order lawful ends w
    simp only [perform, Interface.wrap, total, Tag.forward_named named, Option.map_some]
    exact congrArg (settle w) (congrArg some moved)
  composed _ := rfl
  inside := within_inside order ends
  eq_self_iff := within_eq_self_iff order lawful ends
  idempotent w := (within_eq_self_iff order lawful ends _).mpr (within_inside order ends w)
  monotone _ _ := within_mono order ⟨low⟩ ⟨high⟩

end Named

/-- The wrappers that list an order are those of exact values. The order is total, all steps that
compare go by it in both shapes of the operand, and it has the maximum and the minimum for its join
and its meet. -/
theorem comparisons_agree (tag : Tag) (inner : Ty) :
    (Capability.ord ∈ (Ty.wrapped tag inner).capabilities ↔
      (Ty.wrapped tag inner).isExact = true) ∧
    (Capability.ord ∈ (Ty.wrapped tag inner).capabilities →
      ∃ (compare : Wrapped tag inner.Carrier → Wrapped tag inner.Carrier → Ordering)
        (join meet : Wrapped tag inner.Carrier → Wrapped tag inner.Carrier →
          Wrapped tag inner.Carrier),
        Std.TransCmp compare ∧ Std.LawfulEqCmp compare ∧ ComparesBy inner.interface compare ∧
        BoundsBy inner.interface compare join meet ∧
        ∀ low high, (compare ⟨low⟩ ⟨high⟩).isLE = true →
          ∃ within, ClampsBy inner.interface compare join meet low high within) := by
  refine ⟨Ty.mem_capabilities_iff_isExact _ rfl, fun ordered => ?_⟩
  obtain ⟨named, has⟩ := (Interface.mem_capabilities_wrapped_iff tag inner rfl).mp ordered
  obtain ⟨name, named⟩ := Option.isSome_iff_exists.mp named
  obtain ⟨bare, total, transitive, lawful, partially, equal⟩ := inner.exists_order has
  have order := transCmp_of_key transitive (Wrapped.value : Wrapped tag inner.Carrier → _)
  have lawful := lawfulEqCmp_of_key lawful fun (a b : Wrapped tag inner.Carrier) => Wrapped.ext
  exact ⟨_, _, _, order, lawful, comparesBy named total partially equal,
    boundsBy named total order, fun low high ends => ⟨_, clampsBy named total order lawful ends⟩⟩

theorem comparisons_agree_name :
    let I := Interface.text
    let w : Wrapped Catalogue.nameTag Text := ⟨"Zoë".toList⟩
    Capability.ord ∈ Catalogue.name.capabilities ∧
      perform I w (.relate .lt (.wrapped "Zoe".toList)) =
        perform I w (.relate .lt (.bare "Zoe".toList)) ∧
      ∃ moved, perform I w (.clamp "A".toList "M".toList) = answer .nothing moved ∧
        perform I moved (.clamp "A".toList "M".toList) = answer .nothing moved := by
  intro I w
  obtain ⟨exact, laws⟩ := comparisons_agree Catalogue.nameTag .text
  have ordered : Capability.ord ∈ Catalogue.name.capabilities := exact.mpr rfl
  obtain ⟨compare, join, meet, -, -, compares, -, clamps⟩ := laws ordered
  have less : compare ⟨"A".toList⟩ ⟨"M".toList⟩ = .lt := by
    have told := compares.order ⟨"A".toList⟩ "M".toList
    cases found : compare ⟨"A".toList⟩ ⟨"M".toList⟩ with
    | lt => rfl
    | eq => rw [found] at told; cases told
    | gt => rw [found] at told; cases told
  obtain ⟨within, moves⟩ := clamps "A".toList "M".toList (by rw [less]; rfl)
  refine ⟨ordered, ?_, within w, moves.clamp w, ?_⟩
  · exact (compares.relation w .lt (.wrapped "Zoe".toList)).trans
      (compares.relation w .lt (.bare "Zoe".toList)).symm
  · have still := moves.clamp (within w)
    rwa [moves.idempotent w] at still

end Wrapped

end Nominal
