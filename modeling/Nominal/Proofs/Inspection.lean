import Nominal.Catalogue
import Nominal.Proofs.Interface.Inspection
import Nominal.Proofs.Script.Run

/-! What wrappers show for inspection tells their values apart. Two wrappers of one type are
shown alike only if they hold the same value, and two lists of them only if they are the same
list, whatever texts the values hold and however much they look like the text around them. -/

namespace Nominal.Wrapped

variable {V : Type}

/-- A specification under which equality can be read off what is shown: the test for equality
is equality, and it decides whether two values, or two lists of them, are shown alike. -/
structure ToldApart (tag : Tag) (I : Interface V) (s : Spec) (text : Wrapped tag V → Text)
    (listText : List (Wrapped tag V) → Text) (equal : Wrapped tag V → Wrapped tag V → Bool) :
    Prop where
  shows : ∀ w, perform I w (.debug s) = answer (.text (text w)) w
  showsList : ∀ ws, performList I ws (.debug s) = (.done (.text (listText ws)), ws)
  compares : (I.wrap tag).equal? = some equal
  comparesLists : (I.wrap tag).list.equal? = some (Interface.equalLists equal)
  equal_iff : ∀ v w, equal v w = true ↔ v = w
  same_iff : ∀ v w, text v = text w ↔ equal v w = true
  sameList_iff : ∀ vs ws, listText vs = listText ws ↔ Interface.equalLists equal vs ws = true

theorem toldApart {tag : Tag} {I : Interface V} {s : Spec} {debug : Spec → V → Text}
    {equal : V → V → Bool} (named : tag.name?.isSome = true) (fits : s.InRange)
    (has : I.debug? = some debug) (legible : Legible (debug s)) (tests : I.equal? = some equal)
    (decides : ∀ a b, equal a b = true ↔ a = b) :
    ∃ text listText, ToldApart tag I s text listText fun v w => equal v.value w.value := by
  obtain ⟨name, named⟩ := Option.isSome_iff_exists.mp named
  have wrapped : Legible fun w : Wrapped tag V => s.labelled name (debug s w.value) :=
    (legible.labelled s name).of_key fun _ _ => ext
  have equal_iff (v w : Wrapped tag V) : equal v.value w.value = true ↔ v = w :=
    (decides v.value w.value).trans ⟨ext, congrArg value⟩
  have shown : (I.wrap tag).debug? = some fun s w => s.labelled name (debug s w.value) := by
    simp only [Interface.wrap, has, Tag.forward_named named]
  have compares : (I.wrap tag).equal? = some fun v w => equal v.value w.value := by
    simp only [Interface.wrap, tests, Tag.forward_named named]
  refine ⟨fun w => s.labelled name (debug s w.value),
    fun ws => s.enclose '[' ']' (ws.map fun w => s.labelled name (debug s w.value)),
    ?_, ?_, compares, ?_, equal_iff, ?_, ?_⟩
  · intro w
    rw [perform, shown, write_some, if_pos fits]
  · intro ws
    rw [performList, shown, Option.map_some, inscribe_some, if_pos fits]
  · simp only [Interface.list, compares]
    rfl
  · intro v w
    rw [equal_iff]
    exact ⟨wrapped.injective, fun same => same ▸ rfl⟩
  · intro vs ws
    rw [Interface.equalLists_iff equal_iff]
    exact ⟨wrapped.list fun w => Spec.labelled_ne_nil s name _, fun same => same ▸ rfl⟩

/-- Exact values under a name, without lists and addresses in them, are told apart by every
specification that asks for no width and no precision, in one line or in several. -/
theorem inspection_unambiguous (tag : Tag) (inner : Ty)
    (exact : (Ty.wrapped tag inner).isExact = true) (flat : inner.isFlat = true) {s : Spec}
    (unpadded : s.Unpadded) :
    ∃ text listText equal, ToldApart tag inner.interface s text listText equal := by
  obtain ⟨named, exactInner⟩ := Bool.and_eq_true_iff.mp exact
  have fits : s.InRange := by
    rw [Spec.InRange, unpadded.1, unpadded.2]
    decide
  obtain ⟨debug, has, legible⟩ := inner.exists_legible unpadded exactInner flat
  have reflexive : inner.interface.has .eq = true := (inner.has_eq_isExact rfl).trans exactInner
  have compares := inner.consistent.equal_of_reflexive reflexive
  obtain ⟨equal, tests⟩ := Option.isSome_iff_exists.mp compares
  have decides := inner.decidesEquality reflexive equal tests
  obtain ⟨text, listText, told⟩ := toldApart named fits has legible tests decides
  exact ⟨text, listText, _, told⟩

example : (Catalogue.all.filter fun entry => !(entry.2.isExact && entry.2.isFlat)).map Prod.fst =
    ["Ratio", "Gain", "Untagged", "Many", "UnitTag"] := by decide

theorem inspection_unambiguous_name :
    let one : List (Wrapped Catalogue.nameTag Text) := [⟨"a\"), Name(\"b".toList⟩]
    let two : List (Wrapped Catalogue.nameTag Text) := [⟨"a".toList⟩, ⟨"b".toList⟩]
    ∀ s ∈ [Spec.plain, { Spec.plain with alternate := true }], ∃ front back,
      performList Interface.text one (.debug s) = (.done (.text front), one) ∧
        performList Interface.text two (.debug s) = (.done (.text back), two) ∧ front ≠ back := by
  intro one two s mem
  have unpadded : ∀ s ∈ [Spec.plain, { Spec.plain with alternate := true }], s.Unpadded := by
    simp [Spec.Unpadded, Spec.plain]
  obtain ⟨text, listText, equal, told⟩ :=
    inspection_unambiguous Catalogue.nameTag .text rfl rfl (unpadded s mem)
  refine ⟨listText one, listText two, told.showsList one, told.showsList two, ?_⟩
  intro same
  have alike : one = two :=
    (Interface.equalLists_iff told.equal_iff one two).mp ((told.sameList_iff one two).mp same)
  exact absurd (congrArg List.length alike) (by decide)

end Nominal.Wrapped
