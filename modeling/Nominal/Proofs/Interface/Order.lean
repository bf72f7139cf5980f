import Nominal.Proofs.Interface.Consistent
import Nominal.Proofs.Interface.Mirror
import Nominal.Proofs.Text.Bytes

/-! Orders behind interfaces. A base type with an order compares by a key that no two values
share: an integer by its number, a text by its bytes, a character by its code. The ways to
build a type from others keep an order total and keep it in step with the partial
comparison and with equality. So every order in the grammar of types is a total one. -/

namespace Nominal

variable {V W K : Type}

/-- Where the equality of an interface is one to rely on, it is equality of values. -/
def Interface.DecidesEquality (I : Interface V) : Prop :=
  I.reflexive = true → ∀ equal ∈ I.equal?, ∀ a b, equal a b = true ↔ a = b

/-- Where an interface has an order, the order is total and the partial comparison agrees. -/
structure Interface.Ordered (I : Interface V) : Prop where
  transitive : ∀ compare ∈ I.compare?, Std.TransCmp compare
  lawful : ∀ compare ∈ I.compare?, Std.LawfulEqCmp compare
  agrees : ∀ compare ∈ I.compare?, ∀ partialCompare ∈ I.partialCompare?,
    partialCompare = fun a b => some (compare a b)

theorem transCmp_of_key {compare : K → K → Ordering} (transitive : Std.TransCmp compare)
    (key : V → K) : Std.TransCmp fun a b => compare (key a) (key b) where
  eq_swap := transitive.eq_swap
  isLE_trans := transitive.isLE_trans

theorem lawfulEqCmp_of_key {compare : K → K → Ordering} (lawful : Std.LawfulEqCmp compare)
    {key : V → K} (injective : ∀ a b, key a = key b → a = b) :
    Std.LawfulEqCmp fun a b => compare (key a) (key b) where
  compare_self := lawful.compare_self
  eq_of_compare same := injective _ _ (lawful.eq_of_compare same)

namespace Interface

theorem ordered_of_key {I : Interface V} (compare : K → K → Ordering)
    [transitive : Std.TransCmp compare] [lawful : Std.LawfulEqCmp compare] (key : V → K)
    (injective : ∀ a b, key a = key b → a = b)
    (total : I.compare? = some fun a b => compare (key a) (key b))
    (partially : I.partialCompare? = some fun a b => some (compare (key a) (key b))) :
    I.Ordered := by
  constructor <;> intro found has <;> rw [total] at has <;> cases has
  · exact transCmp_of_key transitive key
  · exact lawfulEqCmp_of_key lawful injective
  · intro found has
    rw [partially] at has
    cases has
    rfl

theorem ordered_of_none {I : Interface V} (none : I.compare? = none) : I.Ordered := by
  constructor <;> intro found has <;> rw [none] at has <;> cases has

theorem ordered_integerBase (f : IntFormat) : (integerBase f).Ordered :=
  ordered_of_key (fun a b : Int => Ord.compare a b) FixedInt.toInt (fun _ _ => FixedInt.ext) rfl rfl

theorem ordered_text : text.Ordered :=
  ordered_of_key (List.compareLex Ord.compare) Text.bytes (fun _ _ => Text.bytes_injective) rfl rfl

theorem ordered_truth : truth.Ordered :=
  ordered_of_key (fun a b : Nat => Ord.compare a b) Bool.toNat (by decide) rfl rfl

theorem ordered_char : char.Ordered :=
  ordered_of_key (fun a b : Nat => Ord.compare a b) Char.toNat (fun _ _ => Char.toNat_inj.mp) rfl rfl

theorem ordered_unit : unit.Ordered :=
  ordered_of_key (fun a b : Nat => Ord.compare a b) (fun _ => 0) (fun _ _ _ => rfl) rfl rfl

theorem ordered_address : address.Ordered :=
  ordered_of_key (fun a b : Nat => Ord.compare a b) id (fun _ _ same => same) rfl rfl

theorem decidesEquality_integerBase (f : IntFormat) : (integerBase f).DecidesEquality := by
  intro _ equal has
  cases has
  exact fun _ _ => decide_eq_true_iff

theorem decidesEquality_text : text.DecidesEquality := by
  intro _ equal has
  cases has
  exact fun _ _ => decide_eq_true_iff

theorem decidesEquality_truth : truth.DecidesEquality := by
  intro _ equal has
  cases has
  exact fun _ _ => beq_iff_eq

theorem decidesEquality_char : char.DecidesEquality := by
  intro _ equal has
  cases has
  exact fun _ _ => decide_eq_true_iff

theorem decidesEquality_unit : unit.DecidesEquality := by
  intro _ equal has
  cases has
  exact fun _ _ => iff_of_true rfl rfl

theorem decidesEquality_address : address.DecidesEquality := by
  intro _ equal has
  cases has
  exact fun _ _ => beq_iff_eq

theorem mem_both {α β γ : Type} {a? : Option α} {b? : Option β} {join : α → β → γ} {c : γ} :
    c ∈ both a? b? join ↔ ∃ a ∈ a?, ∃ b ∈ b?, join a b = c := by
  cases a? <;> cases b? <;> simp [both]

section Pairs

variable {first : V → V → Ordering} {second : W → W → Ordering}

theorem transCmp_comparePairs (left : Std.TransCmp first) (right : Std.TransCmp second) :
    Std.TransCmp (comparePairs first second) :=
  have := transCmp_of_key left (Prod.fst : V × W → V)
  have := transCmp_of_key right (Prod.snd : V × W → W)
  inferInstanceAs (Std.TransCmp (compareLex (fun p q : V × W => first p.1 q.1)
    fun p q => second p.2 q.2))

theorem lawfulEqCmp_comparePairs (left : Std.LawfulEqCmp first) (right : Std.LawfulEqCmp second) :
    Std.LawfulEqCmp (comparePairs first second) where
  compare_self := Ordering.then_eq_eq.mpr ⟨left.compare_self, right.compare_self⟩
  eq_of_compare same := by
    obtain ⟨fronts, backs⟩ := Ordering.then_eq_eq.mp same
    exact Prod.ext (left.eq_of_compare fronts) (right.eq_of_compare backs)

theorem partialComparePairs_some (p q : V × W) :
    partialComparePairs (fun a b => some (first a b)) (fun a b => some (second a b)) p q =
      some (comparePairs first second p q) := by
  simp only [partialComparePairs, comparePairs]
  cases first p.1 q.1 <;> rfl

end Pairs

section Options

variable {compare : V → V → Ordering}

theorem transCmp_compareOptions (inner : Std.TransCmp compare) :
    Std.TransCmp (compareOptions compare) where
  eq_swap {a b} := by
    cases a with
    | none => cases b <;> rfl
    | some a =>
      cases b with
      | none => rfl
      | some b => exact inner.eq_swap
  isLE_trans {a b c} low high := by
    cases a with
    | none => cases c <;> rfl
    | some a =>
      cases b with
      | none => cases low
      | some b =>
        cases c with
        | none => cases high
        | some c => exact inner.isLE_trans low high

theorem lawfulEqCmp_compareOptions (inner : Std.LawfulEqCmp compare) :
    Std.LawfulEqCmp (compareOptions compare) where
  compare_self {a} := by
    cases a with
    | none => rfl
    | some a => exact inner.compare_self
  eq_of_compare {a b} same := by
    cases a with
    | none =>
      cases b with
      | none => rfl
      | some b => cases same
    | some a =>
      cases b with
      | none => cases same
      | some b => exact congrArg some (inner.eq_of_compare same)

theorem partialCompareOptions_some (a b : Option V) :
    partialCompareOptions (fun a b => some (compare a b)) a b =
      some (compareOptions compare a b) := by
  cases a <;> cases b <;> rfl

end Options

theorem partialCompareLists_some {compare : V → V → Ordering} (vs ws : List V) :
    partialCompareLists (fun a b => some (compare a b)) vs ws =
      some (List.compareLex compare vs ws) := by
  induction vs generalizing ws with
  | nil => cases ws <;> rfl
  | cons v vs ih =>
    cases ws with
    | nil => rfl
    | cons w ws =>
      rw [List.compareLex_cons_cons, partialCompareLists]
      cases compare v w with
      | eq => exact ih ws
      | lt => rfl
      | gt => rfl

theorem equalLists_iff {equal : V → V → Bool} (decides : ∀ a b, equal a b = true ↔ a = b)
    (vs ws : List V) : equalLists equal vs ws = true ↔ vs = ws := by
  induction vs generalizing ws with
  | nil => cases ws <;> simp [equalLists]
  | cons v vs ih =>
    cases ws with
    | nil => simp [equalLists]
    | cons w ws => rw [equalLists, Bool.and_eq_true, decides, ih, List.cons.injEq]

theorem equalOptions_iff {equal : V → V → Bool} (decides : ∀ a b, equal a b = true ↔ a = b)
    (a b : Option V) : equalOptions equal a b = true ↔ a = b := by
  cases a <;> cases b <;> simp [equalOptions, decides]

namespace Ordered

variable {I : Interface V} {J : Interface W}

theorem pair (front : I.Ordered) (back : J.Ordered) : (I.pair J).Ordered := by
  constructor <;> intro found has <;> obtain ⟨first, hf, second, hs, rfl⟩ := mem_both.mp has
  · exact transCmp_comparePairs (front.transitive first hf) (back.transitive second hs)
  · exact lawfulEqCmp_comparePairs (front.lawful first hf) (back.lawful second hs)
  · intro found has
    obtain ⟨first', hf', second', hs', rfl⟩ := mem_both.mp has
    obtain rfl := front.agrees first hf first' hf'
    obtain rfl := back.agrees second hs second' hs'
    funext p q
    exact partialComparePairs_some p q

theorem option (inner : I.Ordered) : I.option.Ordered := by
  constructor <;> intro found has <;> obtain ⟨compare, hc, rfl⟩ := Option.map_eq_some_iff.mp has
  · exact transCmp_compareOptions (inner.transitive compare hc)
  · exact lawfulEqCmp_compareOptions (inner.lawful compare hc)
  · intro found has
    obtain ⟨compare', hc', rfl⟩ := Option.map_eq_some_iff.mp has
    obtain rfl := inner.agrees compare hc compare' hc'
    funext a b
    exact partialCompareOptions_some a b

theorem list (inner : I.Ordered) : I.list.Ordered := by
  constructor <;> intro found has <;> obtain ⟨compare, hc, rfl⟩ := Option.map_eq_some_iff.mp has
  · have := inner.transitive compare hc
    infer_instance
  · have := inner.lawful compare hc
    infer_instance
  · intro found has
    obtain ⟨compare', hc', rfl⟩ := Option.map_eq_some_iff.mp has
    obtain rfl := inner.agrees compare hc compare' hc'
    funext vs ws
    exact partialCompareLists_some vs ws

theorem view (inner : I.Ordered) : I.view.Ordered := ⟨inner.transitive, inner.lawful, inner.agrees⟩

theorem shared (inner : I.Ordered) : I.shared.Ordered :=
  ⟨inner.transitive, inner.lawful, inner.agrees⟩

theorem wrap (inner : I.Ordered) (tag : Tag) : (I.wrap tag).Ordered := by
  constructor <;> intro found has <;> obtain ⟨name, named, compare, hc, rfl⟩ := Tag.mem_forward.mp has
  · exact transCmp_of_key (inner.transitive compare hc) Wrapped.value
  · exact lawfulEqCmp_of_key (inner.lawful compare hc) fun _ _ => Wrapped.ext
  · intro found has
    obtain ⟨name', -, compare', hc', rfl⟩ := Tag.mem_forward.mp has
    obtain rfl := inner.agrees compare hc compare' hc'
    rfl

end Ordered

namespace DecidesEquality

variable {I : Interface V} {J : Interface W}

theorem pair (front : I.DecidesEquality) (back : J.DecidesEquality) :
    (I.pair J).DecidesEquality := by
  intro reflexive equal has
  obtain ⟨left, right⟩ := Bool.and_eq_true_iff.mp reflexive
  obtain ⟨first, hf, second, hs, rfl⟩ := mem_both.mp has
  intro p q
  rw [Bool.and_eq_true, front left first hf, back right second hs, Prod.ext_iff]

theorem option (inner : I.DecidesEquality) : I.option.DecidesEquality := by
  intro reflexive equal has
  obtain ⟨equal, he, rfl⟩ := Option.map_eq_some_iff.mp has
  exact equalOptions_iff (inner reflexive equal he)

theorem list (inner : I.DecidesEquality) : I.list.DecidesEquality := by
  intro reflexive equal has
  obtain ⟨equal, he, rfl⟩ := Option.map_eq_some_iff.mp has
  exact equalLists_iff (inner reflexive equal he)

theorem wrap (inner : I.DecidesEquality) (tag : Tag) : (I.wrap tag).DecidesEquality := by
  intro reflexive equal has
  obtain ⟨-, reflexive⟩ := Bool.and_eq_true_iff.mp reflexive
  obtain ⟨name, -, equal, he, rfl⟩ := Tag.mem_forward.mp has
  intro a b
  rw [inner reflexive equal he, Wrapped.ext_iff]

end DecidesEquality

end Interface

namespace Ty

theorem ordered (t : Ty) : t.interface.Ordered := by
  induction t with
  | int f | wrapping f | saturating f =>
    have base := Interface.ordered_integerBase f
    exact ⟨base.transitive, base.lawful, base.agrees⟩
  | float f => exact Interface.ordered_of_none rfl
  | text => exact Interface.ordered_text
  | textView =>
    have base := Interface.ordered_text
    exact ⟨base.transitive, base.lawful, base.agrees⟩
  | truth => exact Interface.ordered_truth
  | char => exact Interface.ordered_char
  | unit => exact Interface.ordered_unit
  | pair first second ihFirst ihSecond => exact ihFirst.pair ihSecond
  | option inner ih => exact ih.option
  | list inner ih => exact ih.list
  | shared inner ih => exact ih.shared
  | view inner ih => exact ih.view
  | address inner _ => exact Interface.ordered_address
  | wrapped tag inner ih => exact ih.wrap tag

theorem decidesEquality (t : Ty) : t.interface.DecidesEquality := by
  induction t with
  | int f | wrapping f | saturating f => exact Interface.decidesEquality_integerBase f
  -- What is not a number differs from itself.
  | float f => exact fun reflexive => absurd reflexive Bool.false_ne_true
  | text | textView => exact Interface.decidesEquality_text
  | truth => exact Interface.decidesEquality_truth
  | char => exact Interface.decidesEquality_char
  | unit => exact Interface.decidesEquality_unit
  | pair first second ihFirst ihSecond => exact ihFirst.pair ihSecond
  | option inner ih => exact ih.option
  | list inner ih => exact ih.list
  | shared inner ih | view inner ih => exact ih
  | address inner _ => exact Interface.decidesEquality_address
  | wrapped tag inner ih => exact ih.wrap tag

theorem exists_order (t : Ty) (has : t.interface.compare?.isSome = true) :
    ∃ compare, t.interface.compare? = some compare ∧
      Std.TransCmp compare ∧ Std.LawfulEqCmp compare ∧
      t.interface.partialCompare? = some (fun a b => some (compare a b)) ∧
      t.interface.equal? = some fun a b => (compare a b).isEq := by
  have reflexive := t.consistent.reflexive_of_compare has
  obtain ⟨compare, total⟩ := Option.isSome_iff_exists.mp has
  obtain ⟨partially, hp⟩ := Option.isSome_iff_exists.mp (t.consistent.partialCompare_of_compare has)
  obtain ⟨equal, he⟩ := Option.isSome_iff_exists.mp (t.consistent.equal_of_reflexive reflexive)
  have lawful := t.ordered.lawful compare total
  obtain rfl := t.ordered.agrees compare total partially hp
  refine ⟨compare, total, t.ordered.transitive compare total, lawful, hp, ?_⟩
  rw [he, Option.some.injEq]
  funext a b
  rw [Bool.eq_iff_iff, t.decidesEquality reflexive equal he, Ordering.isEq_iff_eq_eq,
    Std.LawfulEqCmp.compare_eq_iff_eq]

end Ty

end Nominal
