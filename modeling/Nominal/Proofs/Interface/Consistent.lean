import Nominal.Ty

/-! Operations that presuppose others. Whoever copies can clone, an order comes with its
partial form and with an equality to rely on, a zero with addition, a one with
multiplication, and the methods of an operator with the operator. Every interface of the
grammar of types keeps to this, and each way to build a type carries it over. -/

namespace Nominal

variable {V W : Type}

/-- Every operation of the interface comes with those that it presupposes. -/
structure Interface.Consistent (I : Interface V) : Prop where
  clone_of_copy : I.copyable = true → I.clonable = true
  equal_of_reflexive : I.reflexive = true → I.equal?.isSome = true
  equal_of_partialCompare : I.partialCompare?.isSome = true → I.equal?.isSome = true
  reflexive_of_compare : I.compare?.isSome = true → I.reflexive = true
  partialCompare_of_compare : I.compare?.isSome = true → I.partialCompare?.isSome = true
  add_of_zero : I.zero?.isSome = true → (I.operate? .add).isSome = true
  mul_of_one : I.one?.isSome = true → (I.operate? .mul).isSome = true
  operate_of_checked : ∀ op, (I.checked? op).isSome = true → (I.operate? op).isSome = true
  operate_of_saturating : ∀ op, (I.saturating? op).isSome = true → (I.operate? op).isSome = true

namespace Interface

theorem consistent_integer (f : IntFormat) : (integer f).Consistent := by
  constructor <;> simp [integer, integerBase]

theorem consistent_wrapping (f : IntFormat) : (wrapping f).Consistent := by
  constructor <;> simp [wrapping, integerBase]

theorem consistent_saturating (f : IntFormat) : (saturating f).Consistent := by
  constructor <;> simp [saturating, integerBase]

theorem consistent_float (f : FloatFormat) : (float f).Consistent := by
  constructor <;> simp [float]

theorem consistent_text : text.Consistent := by
  constructor <;> simp [text]

theorem consistent_textView : textView.Consistent := by
  constructor <;> simp [textView]

theorem consistent_truth : truth.Consistent := by
  constructor <;> simp [truth]

theorem consistent_char : char.Consistent := by
  constructor <;> simp [char]

theorem consistent_unit : unit.Consistent := by
  constructor <;> simp [unit]

theorem consistent_address : address.Consistent := by
  constructor <;> simp [address]

theorem isSome_both {α β γ : Type} (a? : Option α) (b? : Option β) (join : α → β → γ) :
    (both a? b? join).isSome = (a?.isSome && b?.isSome) := by
  cases a? <;> cases b? <;> rfl

namespace Consistent

variable {I : Interface V} {J : Interface W}

theorem pair (first : I.Consistent) (second : J.Consistent) : (I.pair J).Consistent := by
  have together {a a' b b' : Bool} (left : a = true → b = true) (right : a' = true → b' = true)
      (present : (a && a') = true) : (b && b') = true := by
    rw [Bool.and_eq_true] at present ⊢
    exact ⟨left present.1, right present.2⟩
  constructor
  all_goals simp only [Interface.pair, isSome_both]
  · exact together first.clone_of_copy second.clone_of_copy
  · exact together first.equal_of_reflexive second.equal_of_reflexive
  · exact together first.equal_of_partialCompare second.equal_of_partialCompare
  · exact together first.reflexive_of_compare second.reflexive_of_compare
  · exact together first.partialCompare_of_compare second.partialCompare_of_compare
  -- A pair has no arithmetic.
  all_goals simp

theorem option (inner : I.Consistent) : I.option.Consistent := by
  constructor
  all_goals simp only [Interface.option, Option.isSome_map]
  · exact inner.clone_of_copy
  · exact inner.equal_of_reflexive
  · exact inner.equal_of_partialCompare
  · exact inner.reflexive_of_compare
  · exact inner.partialCompare_of_compare
  all_goals simp

theorem list (inner : I.Consistent) : I.list.Consistent := by
  constructor
  all_goals simp only [Interface.list, Option.isSome_map]
  · simp
  · exact inner.equal_of_reflexive
  · exact inner.equal_of_partialCompare
  · exact inner.reflexive_of_compare
  · exact inner.partialCompare_of_compare
  all_goals simp

theorem view (inner : I.Consistent) : I.view.Consistent := by
  refine ⟨fun _ => rfl, inner.equal_of_reflexive, inner.equal_of_partialCompare,
    inner.reflexive_of_compare, inner.partialCompare_of_compare, ?_, ?_, ?_, ?_⟩
  all_goals simp [Interface.view]

theorem shared (inner : I.Consistent) : I.shared.Consistent := by
  refine ⟨fun _ => rfl, inner.equal_of_reflexive, inner.equal_of_partialCompare,
    inner.reflexive_of_compare, inner.partialCompare_of_compare, ?_, ?_, ?_, ?_⟩
  all_goals simp [Interface.shared]

theorem wrap (inner : I.Consistent) (tag : Tag) : (I.wrap tag).Consistent := by
  have forward {α β γ δ : Type} {first? : Option α} {second? : Option β} {lift : Text → α → γ}
      {lift' : Text → β → δ} (implied : first?.isSome = true → second?.isSome = true)
      (present : (tag.forward first? lift).isSome = true) :
      (tag.forward second? lift').isSome = true := by
    rw [Tag.isSome_forward, Bool.and_eq_true] at present ⊢
    exact ⟨present.1, implied present.2⟩
  refine ⟨inner.clone_of_copy, ?_, forward inner.equal_of_partialCompare, ?_,
    forward inner.partialCompare_of_compare, forward inner.add_of_zero,
    forward inner.mul_of_one, ?_, ?_⟩
  · intro reflexive
    have ⟨named, inside⟩ := Bool.and_eq_true_iff.mp reflexive
    simp only [Interface.wrap, Tag.isSome_forward, named, inner.equal_of_reflexive inside,
      Bool.and_self]
  · intro present
    simp only [Interface.wrap, Tag.isSome_forward, Bool.and_eq_true] at present ⊢
    exact ⟨present.1, inner.reflexive_of_compare present.2⟩
  -- A wrapper does not pass the methods of an operator on.
  · intro op present
    cases present
  · intro op present
    cases present

end Consistent

end Interface

theorem Ty.consistent (t : Ty) : t.interface.Consistent := by
  induction t with
  | int f => exact Interface.consistent_integer f
  | wrapping f => exact Interface.consistent_wrapping f
  | saturating f => exact Interface.consistent_saturating f
  | float f => exact Interface.consistent_float f
  | text => exact Interface.consistent_text
  | textView => exact Interface.consistent_textView
  | truth => exact Interface.consistent_truth
  | char => exact Interface.consistent_char
  | unit => exact Interface.consistent_unit
  | pair first second ihFirst ihSecond => exact ihFirst.pair ihSecond
  | option inner ih => exact ih.option
  | list inner ih => exact ih.list
  | shared inner ih => exact ih.shared
  | view inner ih => exact ih.view
  | address inner _ => exact Interface.consistent_address
  | wrapped tag inner ih => exact ih.wrap tag

end Nominal
