import Mathlib.Data.List.Forall2
import Nominal.Collection.Run
import Nominal.Proofs.Spelling
import Nominal.Proofs.Text.Joined

/-! Lists that are joined and read back. Integers and truth values are written in one word,
wrapped or not, so the spaces of a joined list are those that were put between its items, and
the words between them are read as the items. -/

namespace Nominal

open Text

variable {V : Type}

theorem FixedInt.unbroken_display {f : IntFormat} (a : FixedInt f) :
    Unbroken ' ' (a.display Spec.plain) := by
  have digital : ' ' ∉ Nat.toDigits 10 a.toInt.natAbs := fun mem =>
    absurd (Nat.isDigit_of_mem_toDigits (by decide) (by decide) mem) (by decide)
  rw [display_plain]
  refine ⟨List.append_ne_nil_of_right_ne_nil _ Nat.toDigits_ne_nil, ?_⟩
  split <;> simpa using digital

theorem unbroken_truthText (b : Bool) : Unbroken ' ' (truthText b) := by
  cases b with
  | false => exact ⟨by decide, by decide⟩
  | true => exact ⟨by decide, by decide⟩

def Ty.isOneWord : Ty → Bool
  | .int _ | .truth => true
  | .wrapped tag inner => tag.name?.isSome && inner.isOneWord
  | _ => false

namespace Ty

theorem floating_of_isOneWord (t : Ty) (word : t.isOneWord = true) : t.floating = false := by
  induction t with
  | wrapped tag inner ih => exact ih (Bool.and_eq_true_iff.mp word).2
  | float f => cases word
  | _ => rfl

theorem exists_read_of_isOneWord (t : Ty) (word : t.isOneWord = true) :
    ∃ read, t.interface.read? = some read := by
  induction t with
  | int f => exact ⟨_, rfl⟩
  | truth => exact ⟨_, rfl⟩
  | wrapped tag inner ih =>
    obtain ⟨named, word⟩ := Bool.and_eq_true_iff.mp word
    obtain ⟨name, named⟩ := Option.isSome_iff_exists.mp named
    obtain ⟨read, has⟩ := ih word
    exact ⟨_, Interface.read?_wrap named has⟩
  | _ => cases word

theorem exists_unbroken_display (t : Ty) (word : t.isOneWord = true) :
    ∃ display, t.interface.display? = some display ∧ ∀ v, Unbroken ' ' (display Spec.plain v) := by
  induction t with
  | int f => exact ⟨FixedInt.display, rfl, FixedInt.unbroken_display⟩
  | truth =>
    refine ⟨_, rfl, fun b => ?_⟩
    rw [Spec.padText_plain]
    exact unbroken_truthText b
  | wrapped tag inner ih =>
    obtain ⟨named, word⟩ := Bool.and_eq_true_iff.mp word
    obtain ⟨name, named⟩ := Option.isSome_iff_exists.mp named
    obtain ⟨display, has, unbroken⟩ := ih word
    exact ⟨_, Interface.display?_wrap named has, fun w => unbroken w.value⟩
  | _ => cases word

end Ty

namespace Wrapped

structure Rejoins (tag : Tag) (I : Interface V) (text : List (Wrapped tag V) → Text) : Prop where
  joins : ∀ ws, performList I ws .join = (.done (.text (text ws)), ws)
  nil : text [] = []
  spaces : ∀ ws, ws ≠ [] → (text ws).count ' ' = ws.length - 1 ∧ Separates ' ' (text ws)
  back : ∀ ws, ws ≠ [] → ∀ u : Wrapped tag V,
    List.Forall₂ (fun piece w => perform I u (.parse piece) = answer .accepted w)
      ((text ws).splitOn ' ') ws
  injective : ∀ vs ws, text vs = text ws → vs = ws
  append : ∀ vs ws, vs ≠ [] → ws ≠ [] → text (vs ++ ws) = text vs ++ ' ' :: text ws

theorem rejoins {tag : Tag} {I : Interface V} {display : Spec → Wrapped tag V → Text}
    {read : Text → Except Rejection (Wrapped tag V)} (displays : (I.wrap tag).display? = some display)
    (reads : (I.wrap tag).read? = some read) (undone : ∀ w, read (display Spec.plain w) = .ok w)
    (unbroken : ∀ w, Unbroken ' ' (display Spec.plain w)) :
    Rejoins tag I (joinDisplayed display) := by
  have words (ws : List (Wrapped tag V)) : ∀ t ∈ ws.map (display Spec.plain), Unbroken ' ' t := by
    simpa using fun w _ => unbroken w
  have apart (ws : List (Wrapped tag V)) : ∀ t ∈ ws.map (display Spec.plain), ' ' ∉ t :=
    fun t mem => (words ws t mem).2
  have nonempty {ws : List (Wrapped tag V)} (filled : ws ≠ []) : ws.map (display Spec.plain) ≠ [] := by
    simpa using filled
  have injective (v w : Wrapped tag V) (same : display Spec.plain v = display Spec.plain w) :
      v = w := by
    have again := undone v
    rw [same, undone w] at again
    exact (Except.ok.inj again).symm
  refine ⟨fun ws => ?_, rfl, fun ws filled => ⟨?_, separates_join (nonempty filled) (words ws)⟩,
    fun ws filled u => ?_, fun vs ws same => ?_, fun vs ws filled filled' => ?_⟩
  · simp only [performList, displays]
    rfl
  · rw [joinDisplayed, count_join (apart ws), List.length_map]
  · rw [joinDisplayed, splitOn_join (nonempty filled) (apart ws), List.forall₂_map_left_iff,
      List.forall₂_same]
    exact fun w _ => (perform_parse_accepted_iff reads).mpr (undone w)
  · exact List.map_injective_iff.mpr injective (join_inj (words vs) (words ws) same)
  · rw [joinDisplayed, List.map_append, join_append [' '] (nonempty filled) (nonempty filled'),
      List.append_assoc]
    rfl

/-- A joined list has one space between neighbours and none at the ends. Split at its spaces it is
read back from any state, so no two lists are joined to one text. -/
theorem joins_reversibly (tag : Tag) (inner : Ty)
    (word : (Ty.wrapped tag inner).isOneWord = true) :
    ∃ text, Rejoins tag inner.interface text := by
  obtain ⟨display, displays, unbroken⟩ := (Ty.wrapped tag inner).exists_unbroken_display word
  obtain ⟨read, reads⟩ := (Ty.wrapped tag inner).exists_read_of_isOneWord word
  have whole := (Ty.wrapped tag inner).floating_of_isOneWord word
  obtain ⟨undone, -⟩ := (Ty.wrapped tag inner).spells whole display displays read reads
  exact ⟨joinDisplayed display, rejoins displays reads undone unbroken⟩

theorem joins_reversibly_outer :
    let least : Wrapped Catalogue.outerTag Catalogue.meter.Carrier := ⟨⟨FixedInt.least .int32⟩⟩
    let greatest : Wrapped Catalogue.outerTag Catalogue.meter.Carrier :=
      ⟨⟨FixedInt.greatest .int32⟩⟩
    let joined : Text := "-2147483648 2147483647 -2147483648".toList
    Catalogue.outer.isOneWord = true ∧
      performList Catalogue.meter.interface [least, greatest, least] .join =
        (.done (.text joined), [least, greatest, least]) ∧
      joined.count ' ' = 2 ∧
      List.Forall₂ (fun piece w =>
          perform Catalogue.meter.interface greatest (.parse piece) = answer .accepted w)
        (joined.splitOn ' ') [least, greatest, least] := by
  intro least greatest joined
  obtain ⟨text, back⟩ := joins_reversibly Catalogue.outerTag Catalogue.meter rfl
  have shown : performList Catalogue.meter.interface [least, greatest, least] .join =
      (.done (.text joined), [least, greatest, least]) := by
    simp only [least, greatest, joined]
    rfl
  have same : text [least, greatest, least] = joined := by
    have replies := (back.joins [least, greatest, least]).symm.trans shown
    injection replies with reply
    injection reply with answer
    injection answer
  have spaces := (back.spaces [least, greatest, least] (List.cons_ne_nil _ _)).1
  have pieces := back.back [least, greatest, least] (List.cons_ne_nil _ _) greatest
  rw [same] at spaces pieces
  exact ⟨rfl, shown, spaces, pieces⟩

example : (Catalogue.all.filter fun entry => entry.2.isOneWord).map Prod.fst =
    ["Meter", "Yard", "Tiny", "Short", "Long", "Huge", "Offset", "Speed", "Port", "NaturalInt",
      "Ticks", "Vast", "Size", "Anon", "Odd", "Plain", "Flag", "Outer", "LocalTagged"] := by decide

end Wrapped

end Nominal
