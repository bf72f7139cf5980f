import Nominal.Catalogue
import Nominal.Proofs.Integer.Canonical
import Nominal.Proofs.Interface.Mirror

/-! Writing and reading undo each other. Whatever a type writes it reads as the value that
was written. The other way round holds up to the spelling: texts, characters and truth
values are written as they were read, and integers in their canonical spelling. Wrappers
change nothing in this. Floating-point numbers are left out. -/

namespace Nominal

variable {V : Type}

/-- Reading undoes writing, and writing undoes reading up to the spelling. -/
def Interface.Spells (I : Interface V) (spelling : Text → Text) : Prop :=
  Alike (fun display read => (∀ v, read (display Spec.plain v) = .ok v) ∧
    ∀ t v, read t = .ok v → display Spec.plain v = spelling t) I.display? I.read?

theorem Interface.spells_integer (f : IntFormat) : (integer f).Spells canonical := by
  rintro display ⟨⟩ read ⟨⟩
  refine ⟨fun a => congrArg (Except.mapError Rejection.integer) a.read_display,
    fun t a accepted => ?_⟩
  cases found : FixedInt.read f t with
  | ok b =>
    simp only [found] at accepted
    cases accepted
    exact FixedInt.display_of_read found
  | error flaw =>
    simp only [found] at accepted
    cases accepted

theorem Interface.spells_text : text.Spells id := by
  rintro display ⟨⟩ read ⟨⟩
  refine ⟨fun t => congrArg Except.ok (Spec.padText_plain t), fun t u accepted => ?_⟩
  cases accepted
  exact Spec.padText_plain t

theorem Interface.spells_truth : truth.Spells id := by
  rintro display ⟨⟩ read ⟨⟩
  simp only [Spec.padText_plain]
  refine ⟨fun b => by cases b <;> rfl, fun t b accepted => ?_⟩
  unfold readTruth at accepted
  split at accepted
  · rename_i same
    cases accepted
    exact same.symm
  · split at accepted
    · rename_i same
      cases accepted
      exact same.symm
    · cases accepted

theorem Interface.spells_char : char.Spells id := by
  rintro display ⟨⟩ read ⟨⟩
  simp only [Spec.padText_plain]
  refine ⟨fun c => rfl, fun t c accepted => ?_⟩
  unfold readChar at accepted
  split at accepted
  · cases accepted
  · cases accepted
    rfl
  · cases accepted

theorem Interface.Spells.wrap {I : Interface V} {spelling : Text → Text} (spells : I.Spells spelling)
    (tag : Tag) : (I.wrap tag).Spells spelling := by
  refine Alike.forward spells fun _ name display read agree => ?_
  obtain ⟨undone, spelt⟩ := agree
  refine ⟨fun w => ?_, fun t w accepted => ?_⟩
  · simp only [Wrapped.readAs, undone]
  · cases found : read t with
    | ok v =>
      simp only [Wrapped.readAs, found, Except.ok.injEq] at accepted
      rw [← accepted]
      exact spelt t v found
    | error cause =>
      simp only [Wrapped.readAs, found] at accepted
      cases accepted

namespace Ty

def floating : Ty → Bool
  | .float _ => true
  | .wrapped _ inner => inner.floating
  | _ => false

def spelling : Ty → Text → Text
  | .int _ => canonical
  | .wrapped _ inner => inner.spelling
  | _ => id

theorem spells (t : Ty) (whole : t.floating = false) : t.interface.Spells t.spelling := by
  induction t with
  | int f => exact Interface.spells_integer f
  | text => exact Interface.spells_text
  | truth => exact Interface.spells_truth
  | char => exact Interface.spells_char
  | float f => cases whole
  | wrapped tag inner ih => exact (ih whole).wrap tag
  | _ =>
    intro display _ read has
    cases has

end Ty

namespace Wrapped

variable {tag : Tag} {I : Interface V}

theorem perform_display_plain {display : Spec → Wrapped tag V → Text}
    (has : (I.wrap tag).display? = some display) (w : Wrapped tag V) :
    perform I w (.display Spec.plain) = answer (.text (display Spec.plain w)) w := by
  have fits : Spec.plain.InRange := by decide
  rw [perform, has, write_some, if_pos fits]

theorem perform_parse_accepted_iff {read : Text → Except Rejection (Wrapped tag V)}
    (has : (I.wrap tag).read? = some read) {u w : Wrapped tag V} {t : Text} :
    perform I u (.parse t) = answer .accepted w ↔ read t = .ok w := by
  simp only [perform, parse, has]
  cases read t <;> simp [answer]

/-- A wrapper that can be written and read, over no floating-point numbers, reads what it
writes as the state that was written, from every state. What it has read it writes in the
spelling of its type, so two texts stand for one state just in case they have one spelling. -/
theorem parse_display (tag : Tag) (inner : Ty)
    (displays : (Ty.wrapped tag inner).interface.has .display = true)
    (parses : (Ty.wrapped tag inner).interface.has .parse = true) (whole : inner.floating = false) :
    (∀ w u : Wrapped tag inner.Carrier, ∃ t,
        perform inner.interface w (.display Spec.plain) = answer (.text t) w ∧
        perform inner.interface u (.parse t) = answer .accepted w) ∧
      (∀ (u w : Wrapped tag inner.Carrier) (t : Text),
        perform inner.interface u (.parse t) = answer .accepted w →
        perform inner.interface w (.display Spec.plain) =
          answer (.text (inner.spelling t)) w) ∧
      ∀ (u u' w w' : Wrapped tag inner.Carrier) (t t' : Text),
        perform inner.interface u (.parse t) = answer .accepted w →
        perform inner.interface u' (.parse t') = answer .accepted w' →
        (w = w' ↔ inner.spelling t = inner.spelling t') := by
  obtain ⟨display, hasDisplay⟩ := Option.isSome_iff_exists.mp displays
  obtain ⟨read, hasRead⟩ := Option.isSome_iff_exists.mp parses
  obtain ⟨undone, spelt⟩ :=
    (Ty.wrapped tag inner).spells whole display hasDisplay read hasRead
  refine ⟨fun w u => ?_, fun u w t accepted => ?_, fun u u' w w' t t' accepted accepted' => ?_⟩
  · exact ⟨_, perform_display_plain hasDisplay w,
      (perform_parse_accepted_iff hasRead).mpr (undone w)⟩
  · rw [perform_display_plain hasDisplay]
    rw [spelt t w ((perform_parse_accepted_iff hasRead).mp accepted)]
    rfl
  · have written := spelt t w ((perform_parse_accepted_iff hasRead).mp accepted)
    have written' := spelt t' w' ((perform_parse_accepted_iff hasRead).mp accepted')
    show _ ↔ (Ty.wrapped tag inner).spelling t = (Ty.wrapped tag inner).spelling t'
    rw [← written, ← written']
    constructor
    · rintro rfl
      rfl
    · intro same
      have again := undone w
      rw [same, undone w'] at again
      exact (Except.ok.inj again).symm

theorem parse_display_outer :
    let w : Wrapped Catalogue.outerTag Catalogue.meter.Carrier := ⟨⟨FixedInt.least .int32⟩⟩
    let zero : Wrapped Catalogue.outerTag Catalogue.meter.Carrier := ⟨⟨FixedInt.zero .int32⟩⟩
    Catalogue.outer.interface.has .display = true ∧ Catalogue.outer.interface.has .parse = true ∧
      Catalogue.meter.floating = false ∧
      (∃ t, perform Catalogue.meter.interface w (.display Spec.plain) = answer (.text t) w ∧
        perform Catalogue.meter.interface zero (.parse t) = answer .accepted w) ∧
      perform Catalogue.meter.interface w (.parse "-000".toList) = answer .accepted zero ∧
      perform Catalogue.meter.interface zero (.display Spec.plain) =
        answer (.text "0".toList) zero := by
  intro w zero
  obtain ⟨undone, spelt, -⟩ := parse_display Catalogue.outerTag Catalogue.meter rfl rfl rfl
  have accepted : perform Catalogue.meter.interface w (.parse "-000".toList) =
      answer .accepted zero := rfl
  exact ⟨rfl, rfl, rfl, undone w zero, accepted, spelt w zero _ accepted⟩

example : (Catalogue.all.filter fun entry => entry.2.interface.has .display &&
      entry.2.interface.has .parse && !entry.2.floating).map Prod.fst =
    ["Meter", "Yard", "Tiny", "Short", "Long", "Huge", "Offset", "Speed", "Port", "NaturalInt",
      "Ticks", "Vast", "Size", "Anon", "Odd", "Plain", "Name", "Flag", "Letter", "Outer",
      "LocalTagged"] := by decide

end Wrapped

end Nominal
