import Nominal.Proofs.Capability
import Nominal.Proofs.Integer.Canonical
import Nominal.Proofs.Integer.Residue
import Nominal.Proofs.Interface.Digest
import Nominal.Proofs.Text.Legible

/-! What is shown for inspection can be read back, as long as the specification asks for no
width and no precision. Numbers and truth values are shown without any of the characters that
can follow a part, quoted texts show where they end, and brackets are written around both in
the same way for all values of a type. Lists inside of values are left out: under a tag whose
name is a closing bracket the first item of a list reads like the end of an empty one. -/

namespace Nominal

open Text

variable {V W : Type}

def Spec.Unpadded (s : Spec) : Prop := s.width = 0 ∧ s.precision? = none

namespace Legible

variable {shown : V → Text} {shown' : W → Text}

theorem pair (front : Legible shown) (back : Legible shown') (s : Spec) :
    Legible fun p : V × W => s.enclose '(' ')' [shown p.1, shown' p.2] := by
  intro p q t u _ _ same
  have apart : ∀ pq ∈ [shown p.1, shown' p.2].zip [shown q.1, shown' q.2], Apart pq.1 pq.2 := by
    simpa using ⟨front.apart p.1 q.1, back.apart p.2 q.2⟩
  have parts := Spec.enclose_append_inj rfl (List.cons_ne_nil _ _) (List.cons_ne_nil _ _) apart same
  obtain ⟨first, second⟩ := List.cons.inj parts
  exact Prod.ext (front.injective first) (back.injective (List.head_eq_of_cons_eq second))

theorem option {debug : Spec → V → Text} {s : Spec} (inner : Legible (debug s)) :
    Legible (Interface.debugOption debug s) := by
  have some_ne_none (part : Text) {t u : Text} :
      s.labelled "Some".toList part ++ t ≠ "None".toList ++ u := by
    intro same
    exact absurd (List.head_eq_of_cons_eq same) (by decide)
  intro a b t u ht hu same
  cases a with
  | none =>
    cases b with
    | none => rfl
    | some b => exact absurd same.symm (some_ne_none _)
  | some a =>
    cases b with
    | none => exact absurd same (some_ne_none _)
    | some b => rw [inner.labelled s "Some".toList a b t u ht hu same]

end Legible

namespace Spec

theorem padNumber_of_unpadded {s : Spec} (unpadded : s.Unpadded) (lead digits : Text) :
    s.padNumber lead digits = lead ++ digits := by
  unfold padNumber
  split
  · simp [unpadded.1]
  · exact pad_of_width unpadded.1 _ _

theorem padText_of_unpadded {s : Spec} (unpadded : s.Unpadded) (t : Text) : s.padText t = t := by
  simp only [padText, unpadded.2]
  exact pad_of_width unpadded.1 _ _

end Spec

theorem Text.isFollowing_of_isAlphanum {c : Char} (alphanum : c.isAlphanum = true) :
    isFollowing c = false := by
  rw [← Bool.not_eq_true]
  intro following
  simp only [isFollowing, isClosing, Bool.or_eq_true, decide_eq_true_eq] at following
  rcases following with (rfl | rfl) | (rfl | rfl) | rfl <;> exact absurd alphanum (by decide)

namespace FixedInt

variable {f : IntFormat} {s : Spec}

theorem isWord_toDigits {base : Nat} (wide : 1 < base) (small : base ≤ 16) (n : Nat) :
    isWord (Nat.toDigits base n) = true := by
  rw [isWord, List.all_eq_true]
  intro c mem
  rw [isFollowing_of_isAlphanum (isAlphanum_of_mem_toDigits wide small mem)]
  rfl

theorem isWord_sign (negative : Bool) : isWord (s.sign negative) = true := by
  unfold Spec.sign
  cases negative <;> cases s.plus <;> rfl

theorem display_of_unpadded (unpadded : s.Unpadded) (a : FixedInt f) :
    a.display s = s.sign (a.toInt < 0) ++ digits a.toInt.natAbs :=
  s.padNumber_of_unpadded unpadded _ _

theorem minus_mem_display_iff (unpadded : s.Unpadded) (a : FixedInt f) :
    '-' ∈ a.display s ↔ a.toInt < 0 := by
  have digital : '-' ∉ digits a.toInt.natAbs := fun mem =>
    absurd (isAlphanum_of_mem_toDigits (by decide) (by decide) mem) (by decide)
  rw [display_of_unpadded unpadded, List.mem_append, or_iff_left digital]
  by_cases negative : a.toInt < 0
  · simp [Spec.sign, negative]
  · cases plus : s.plus <;> simp [Spec.sign, negative, plus]

theorem legible_display (unpadded : s.Unpadded) : Legible fun a : FixedInt f => a.display s := by
  apply Legible.of_isWord
  · intro a
    rw [display_of_unpadded unpadded, isWord, List.all_append, Bool.and_eq_true]
    exact ⟨isWord_sign _, isWord_toDigits (by decide) (by decide) _⟩
  · intro a b same
    have signs : a.toInt < 0 ↔ b.toInt < 0 := by
      rw [← minus_mem_display_iff unpadded, same, minus_mem_display_iff unpadded]
    rw [display_of_unpadded unpadded, display_of_unpadded unpadded,
      decide_eq_decide.mpr signs] at same
    have sizes : a.toInt.natAbs = b.toInt.natAbs :=
      toDigits_inj (by decide) (by decide) (List.append_cancel_left same)
    apply ext
    omega

theorem legible_hexDigits : Legible fun a : FixedInt f => Nat.toDigits 16 a.pattern := by
  apply Legible.of_isWord
  · exact fun a => isWord_toDigits (by decide) (by decide) _
  · exact fun a b same => pattern_inj (toDigits_inj (by decide) (by decide) same)

theorem legible_upperHexDigits :
    Legible fun a : FixedInt f => Text.upper (Nat.toDigits 16 a.pattern) := by
  apply Legible.of_isWord
  · have letters : ∀ i < 16, (!isFollowing (Nat.digitChar i).toUpper) = true := by decide
    intro a
    rw [isWord, List.all_eq_true]
    intro c mem
    obtain ⟨d, digit, rfl⟩ := List.mem_map.mp mem
    obtain ⟨i, small, rfl⟩ := exists_digitChar_of_mem (by decide) digit
    exact letters i small
  · exact fun a b same => pattern_inj (upper_toDigits_inj (by decide) (by decide) same)

theorem legible_displayHex (unpadded : s.Unpadded) :
    Legible fun a : FixedInt f => a.displayHex s := by
  simp only [displayHex, Spec.padNumber_of_unpadded unpadded]
  apply Legible.append_left
  by_cases upper : s.radix = .upperHex
  · simpa only [upper, if_true] using legible_upperHexDigits
  · simpa only [upper, if_false] using legible_hexDigits

theorem legible_debug (unpadded : s.Unpadded) : Legible fun a : FixedInt f => a.debug s := by
  unfold debug
  cases s.radix with
  | decimal => exact legible_display unpadded
  | lowerHex | upperHex => exact legible_displayHex unpadded

end FixedInt

theorem legible_truth {s : Spec} (unpadded : s.Unpadded) :
    Legible fun b => s.padText (truthText b) := by
  simp only [Spec.padText_of_unpadded unpadded]
  apply Legible.of_isWord
  · decide
  · decide

theorem Ty.exists_legible {s : Spec} (unpadded : s.Unpadded) (t : Ty) (exact : t.isExact = true)
    (flat : t.isFlat = true) :
    ∃ debug, t.interface.debug? = some debug ∧ Legible (debug s) := by
  induction t with
  | int f | wrapping f | saturating f =>
    exact ⟨FixedInt.debug, rfl, FixedInt.legible_debug unpadded⟩
  | float f => cases exact
  | text | textView => exact ⟨_, rfl, Legible.quoted⟩
  | truth => exact ⟨_, rfl, legible_truth unpadded⟩
  | char => exact ⟨_, rfl, Legible.quotedChar⟩
  | unit => exact ⟨_, rfl, Legible.of_append fun _ _ _ _ _ => rfl⟩
  | pair first second ihFirst ihSecond =>
    obtain ⟨exactFirst, exactSecond⟩ := Bool.and_eq_true_iff.mp exact
    obtain ⟨flatFirst, flatSecond⟩ := Bool.and_eq_true_iff.mp flat
    obtain ⟨front, hf, legibleFront⟩ := ihFirst exactFirst flatFirst
    obtain ⟨back, hb, legibleBack⟩ := ihSecond exactSecond flatSecond
    refine ⟨fun s p => s.enclose '(' ')' [front s p.1, back s p.2], ?_,
      legibleFront.pair legibleBack s⟩
    simp only [interface, Interface.pair, hf, hb]
    rfl
  | option inner ih =>
    obtain ⟨debug, has, legible⟩ := ih exact flat
    refine ⟨Interface.debugOption debug, ?_, legible.option⟩
    simp only [interface, Interface.option, has]
    rfl
  | shared inner ih | view inner ih => exact ih exact flat
  | list inner | address inner => cases flat
  | wrapped tag inner ih =>
    obtain ⟨named, exactInner⟩ := Bool.and_eq_true_iff.mp exact
    obtain ⟨name, named⟩ := Option.isSome_iff_exists.mp named
    obtain ⟨debug, has, legible⟩ := ih exactInner flat
    refine ⟨fun s w => s.labelled name (debug s w.value), ?_,
      (legible.labelled s name).of_key fun _ _ => Wrapped.ext⟩
    simp only [interface, Interface.wrap, has, Tag.forward_named named]
    rfl

end Nominal
