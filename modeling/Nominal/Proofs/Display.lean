import Nominal.Proofs.Spelling
import Nominal.Proofs.Text.Padding

/-! Values as readers see them under a format specification. Behind any number of wrappers, and
whatever the arithmetic of an integer type does at the bounds, readers are shown a number or a
text and nothing else, so only these two kinds of content have to be laid out. -/

namespace Nominal

inductive Content where
  | number (n : Int)
  | text (t : Text)

namespace Spec

def layout (s : Spec) : Content → Text
  | .number n => s.number n
  | .text t => s.padText t

/-- What a specification asks of a content and of its text without a width. -/
def Writes (s : Spec) : Content → Text → Text → Prop
  | .number n, bare, out => s.WritesNumber n bare out
  | .text t, bare, out => s.WritesText t bare out

theorem writes_layout (s : Spec) (c : Content) : s.Writes c (s.unsized.layout c) (s.layout c) := by
  cases c with
  | number n => exact s.writesNumber n
  | text t => exact s.writesText t

end Spec

/-- The values of a type are shown as their content, in any layout. A number that is filled up
with zeros or not at all is read as the value that it stands for. -/
structure Interface.Shows {V : Type} (I : Interface V) (content : V → Content) : Prop where
  display : I.display? = some fun s v => s.layout (content v)
  read : ∀ read ∈ I.read?, ∀ (s : Spec) v n, content v = .number n →
    (s.width ≤ (s.unsized.number n).length ∨ s.zero = true) → read (s.number n) = .ok v

namespace Interface

variable {V : Type} {I : Interface V} {content : V → Content}

theorem shows_integer (f : IntFormat) : (integer f).Shows fun a => .number a.toInt where
  display := rfl
  read := by
    rintro read ⟨⟩ s a n ⟨⟩ solid
    obtain ⟨k, laid⟩ := Spec.exists_zeros a.toInt solid
    rw [laid]
    exact congrArg (Except.mapError Rejection.integer) (a.read_zeros s k)

theorem shows_wrapping (f : IntFormat) : (wrapping f).Shows fun a => .number a.toInt :=
  ⟨rfl, nofun⟩

theorem shows_saturating (f : IntFormat) : (saturating f).Shows fun a => .number a.toInt :=
  ⟨rfl, nofun⟩

theorem shows_text : text.Shows .text := ⟨rfl, fun _ _ _ _ _ => nofun⟩

theorem shows_textView : textView.Shows .text := ⟨rfl, nofun⟩

theorem shows_truth : truth.Shows fun b => .text (truthText b) := ⟨rfl, fun _ _ _ _ _ => nofun⟩

theorem shows_char : char.Shows fun c => .text [c] := ⟨rfl, fun _ _ _ _ _ => nofun⟩

theorem Shows.view (shows : I.Shows content) : I.view.Shows content := ⟨shows.display, nofun⟩

theorem Shows.shared (shows : I.Shows content) : I.shared.Shows content := ⟨shows.display, nofun⟩

theorem Shows.wrap (shows : I.Shows content) {tag : Tag} {name : Text}
    (named : tag.name? = some name) : (I.wrap tag).Shows fun w => content w.value where
  display := display?_wrap named shows.display
  read := by
    intro readWrapper has s w n number solid
    obtain ⟨-, -, read, reads, rfl⟩ := Tag.mem_forward.mp has
    rw [Wrapped.readAs, shows.read read reads s w.value n number solid]

end Interface

namespace Ty

def showsFloats : Ty → Bool
  | .float _ => true
  | .shared inner | .view inner | .wrapped _ inner => inner.showsFloats
  | _ => false

/-- What readers are shown of the values of a type, floating-point numbers apart. -/
def content? : (t : Ty) → Option (t.Carrier → Content)
  | .int _ | .wrapping _ | .saturating _ => some fun a => .number a.toInt
  | .text | .textView => some .text
  | .truth => some fun b => .text (truthText b)
  | .char => some fun c => .text [c]
  | .shared inner | .view inner => inner.content?
  | .wrapped _ inner => inner.content?.map fun content w => content w.value
  | _ => none

theorem exists_content (t : Ty) (displays : t.interface.has .display = true)
    (whole : t.showsFloats = false) :
    ∃ content, t.content? = some content ∧ t.interface.Shows content := by
  induction t with
  | int f => exact ⟨_, rfl, Interface.shows_integer f⟩
  | wrapping f => exact ⟨_, rfl, Interface.shows_wrapping f⟩
  | saturating f => exact ⟨_, rfl, Interface.shows_saturating f⟩
  | text => exact ⟨_, rfl, Interface.shows_text⟩
  | textView => exact ⟨_, rfl, Interface.shows_textView⟩
  | truth => exact ⟨_, rfl, Interface.shows_truth⟩
  | char => exact ⟨_, rfl, Interface.shows_char⟩
  | float f => cases whole
  | shared inner ih =>
    obtain ⟨content, known, shows⟩ := ih displays whole
    exact ⟨content, known, shows.shared⟩
  | view inner ih =>
    obtain ⟨content, known, shows⟩ := ih displays whole
    exact ⟨content, known, shows.view⟩
  | wrapped tag inner ih =>
    have has := Interface.has_wrap inner.interface tag .display
    obtain ⟨named, displays⟩ := Bool.and_eq_true_iff.mp (has.symm.trans displays)
    obtain ⟨name, named⟩ := Option.isSome_iff_exists.mp named
    obtain ⟨content, known, shows⟩ := ih displays whole
    exact ⟨_, congrArg (Option.map _) known, shows.wrap named⟩
  | _ => cases displays

end Ty

namespace Wrapped

variable {V : Type} {tag : Tag} {I : Interface V}

theorem perform_display {content : Wrapped tag V → Content} (shows : (I.wrap tag).Shows content)
    (s : Spec) (w : Wrapped tag V) :
    perform I w (.display s) =
      if s.InRange then answer (.text (s.layout (content w))) w else (.fault .specOutOfRange, w) := by
  rw [perform, shows.display, write_some]

structure Displays (I : Interface V) (s : Spec) (w : Wrapped tag V) (c : Content)
    (bare out : Text) : Prop where
  unsized : perform I w (.display s.unsized) = answer (.text bare) w
  sized : perform I w (.display s) = answer (.text out) w
  writes : s.Writes c bare out
  back : (I.wrap tag).has .parse = true → ∀ n, c = .number n →
    s.width ≤ bare.length ∨ s.zero = true → ∀ u : Wrapped tag V,
      perform I u (.parse out) = answer .accepted w

theorem displays {content : Wrapped tag V → Content} (shows : (I.wrap tag).Shows content)
    {s : Spec} (fits : s.InRange) (w : Wrapped tag V) :
    Displays I s w (content w) (s.unsized.layout (content w)) (s.layout (content w)) where
  unsized := (perform_display shows _ w).trans (if_pos (s.inRange_unsized fits))
  sized := (perform_display shows s w).trans (if_pos fits)
  writes := s.writes_layout (content w)
  back := by
    intro parses n number solid u
    obtain ⟨read, reads⟩ := Option.isSome_iff_exists.mp parses
    rw [number] at solid ⊢
    exact (perform_parse_accepted_iff reads).mpr (shows.read read reads s w n number solid)

theorem Ty.exists_shows_wrapped {tag : Tag} {inner : Ty}
    (displays : (Ty.wrapped tag inner).interface.has .display = true)
    (whole : inner.showsFloats = false) :
    ∃ content, inner.content? = some content ∧
      (inner.interface.wrap tag).Shows fun w => content w.value := by
  obtain ⟨outside, known, shows⟩ := (Ty.wrapped tag inner).exists_content displays whole
  obtain ⟨content, inside, rfl⟩ := Option.map_eq_some_iff.mp known
  exact ⟨content, inside, shows⟩

/-- What is written without the width is filled up to the width on the sides that the alignment
says or, for a number under the `0` flag, between the sign and the digits. Wrappers that hold the
same content write the same. A specification with a number out of range stops with a fault. -/
theorem display_honours_spec (tag : Tag) (inner : Ty)
    (displays : (Ty.wrapped tag inner).interface.has .display = true)
    (whole : inner.showsFloats = false) :
    ∃ content, inner.content? = some content ∧
      (∀ (s : Spec) (w : Wrapped tag inner.Carrier),
        (s.InRange → ∃ bare out, Displays inner.interface s w (content w.value) bare out) ∧
        (¬ s.InRange → perform inner.interface w (.display s) = (.fault .specOutOfRange, w))) ∧
      ∀ (tag' : Tag) (inner' : Ty) (content' : inner'.Carrier → Content),
        (Ty.wrapped tag' inner').interface.has .display = true → inner'.showsFloats = false →
        inner'.content? = some content' →
        ∀ (s : Spec) (w : Wrapped tag inner.Carrier) (w' : Wrapped tag' inner'.Carrier) (out : Text),
          content w.value = content' w'.value →
          (perform inner.interface w (.display s) = answer (.text out) w ↔
            perform inner'.interface w' (.display s) = answer (.text out) w') := by
  obtain ⟨content, known, shows⟩ := Ty.exists_shows_wrapped displays whole
  refine ⟨content, known, fun s w => ⟨fun fits => ⟨_, _, Wrapped.displays shows fits w⟩,
    fun leaves => (perform_display shows s w).trans (if_neg leaves)⟩, ?_⟩
  intro tag' inner' content' displays' whole' known' s w w' out same
  obtain ⟨content'', known'', shows'⟩ := Ty.exists_shows_wrapped displays' whole'
  obtain rfl : content'' = content' := Option.some.inj (known''.symm.trans known')
  have left := perform_display shows s w
  have right := perform_display shows' s w'
  rw [same] at left
  by_cases fits : s.InRange
  · rw [left, right, if_pos fits, if_pos fits]
    simp [answer]
  · rw [left, right, if_neg fits, if_neg fits]
    simp [answer]

/-- A negative number in a wrapper in a wrapper, with a fill and an alignment that the `0` flag
overrides, and a name whose odd number of fills goes around a part of it. -/
theorem display_honours_spec_outer :
    let w : Wrapped Catalogue.outerTag Catalogue.meter.Carrier := ⟨⟨FixedInt.clamp .int32 (-42)⟩⟩
    let zeros : Spec := { fill := '*', align? := some .centre, plus := true, zero := true, width := 8 }
    let jean : Wrapped Catalogue.nameTag Text := ⟨"Jeän-Paul".toList⟩
    let middle : Spec :=
      { fill := '·', align? := some .centre, zero := true, width := 7, precision? := some 4 }
    (Catalogue.outer.interface.has .display = true ∧ Catalogue.meter.showsFloats = false) ∧
      (Catalogue.name.interface.has .display = true ∧ Ty.text.showsFloats = false) ∧
      zeros.InRange ∧ middle.InRange ∧
      Displays Catalogue.meter.interface zeros w (.number (-42)) "-42".toList "-0000042".toList ∧
      perform Catalogue.meter.interface w (.parse "-0000042".toList) = answer .accepted w ∧
      Displays Interface.text middle jean (.text jean.value) "Jeän".toList "·Jeän··".toList := by
  intro w zeros jean middle
  have same {tag : Tag} {V : Type} {v : Wrapped tag V} {o : Outcome tag V} {t u : Text}
      (one : o = answer (.text t) v) (other : o = answer (.text u) v) : t = u := by
    simpa [answer] using one.symm.trans other
  obtain ⟨content, known, numbers, -⟩ := display_honours_spec Catalogue.outerTag Catalogue.meter rfl rfl
  obtain ⟨content', known', texts, -⟩ := display_honours_spec Catalogue.nameTag .text rfl rfl
  cases known
  cases known'
  have zerosFit : zeros.InRange := by decide
  have middleFits : middle.InRange := by decide
  obtain ⟨bare, out, shown⟩ := (numbers zeros w).1 zerosFit
  obtain ⟨bare', out', shown'⟩ := (texts middle jean).1 middleFits
  have digits : perform Catalogue.meter.interface w (.display zeros.unsized) =
      answer (.text "-42".toList) w := by
    simp only [w, zeros]
    rfl
  have filled : perform Catalogue.meter.interface w (.display zeros) =
      answer (.text "-0000042".toList) w := by
    simp only [w, zeros]
    rfl
  have cut : perform Interface.text jean (.display middle.unsized) =
      answer (.text "Jeän".toList) jean := by
    simp only [jean, middle]
    rfl
  have centred : perform Interface.text jean (.display middle) =
      answer (.text "·Jeän··".toList) jean := by
    simp only [jean, middle]
    rfl
  obtain rfl := same shown.unsized digits
  obtain rfl := same shown.sized filled
  obtain rfl := same shown'.unsized cut
  obtain rfl := same shown'.sized centred
  exact ⟨⟨rfl, rfl⟩, ⟨rfl, rfl⟩, zerosFit, middleFits, shown, shown.back rfl _ rfl (.inr rfl) w, shown'⟩

example : (Catalogue.all.filter fun entry => entry.2.interface.has .display &&
      !entry.2.showsFloats).map Prod.fst =
    ["Meter", "Yard", "Tiny", "Short", "Long", "Huge", "Offset", "Speed", "Port", "NaturalInt",
      "Ticks", "Vast", "Size", "Anon", "Odd", "Plain", "Ring", "Wheel", "Clamp", "Name", "Flag",
      "Letter", "Outer", "Shared", "LocalTagged"] := by decide

end Wrapped

end Nominal
