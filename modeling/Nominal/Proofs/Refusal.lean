import Nominal.Proofs.Naming
import Nominal.Proofs.Spelling

/-! Refused texts. A wrapper with a name reads what the wrapped type reads and refuses what it
refuses. A refusal holds the name, the input as it was given and the cause that the wrapped type
gave, so under wrappers in wrappers every level holds the same input, and two refusals of one
wrapper differ just in case the inputs do. -/

namespace Nominal

namespace Rejection

/-- What a wrapper says of an input that the wrapped type refused for a cause. -/
structure Reports (name input : Text) (cause r : Rejection) : Prop where
  parts : r = .named name input cause
  source : r.source? = some cause
  wording : r.message =
    "Invalid ".toList ++ name ++ " '".toList ++ input ++ "': ".toList ++ cause.display Spec.plain
  display : ∀ s : Spec, s.InRange → r.write .display s = .ok r.message ∧
    cause.write .display s =
      .ok (if cause.source?.isSome then cause.message else s.padText cause.message)
  copied : r.copy.same r = true

theorem display_eq (r : Rejection) (s : Spec) :
    r.display s = if r.source?.isSome then r.message else s.padText r.message := by
  cases r <;> rfl

theorem display_plain (r : Rejection) : r.display Spec.plain = r.message := by
  rw [display_eq, Spec.padText_plain, ite_self]

theorem reports_named (name input : Text) (cause : Rejection) :
    Reports name input cause (.named name input cause) where
  parts := rfl
  source := rfl
  wording := by
    rw [display_plain]
    rfl
  display s fits := ⟨if_pos fits, (if_pos fits).trans (congrArg Except.ok (display_eq cause s))⟩
  copied := (same_iff _ _).mpr (copy_eq _)

/-- A cause under names, the first of them outermost, with one input at every level. -/
def under (names : List Text) (input : Text) (flaw : Rejection) : Rejection :=
  names.foldr (fun name cause => .named name input cause) flaw

end Rejection

open Rejection

theorem Wrapped.readAs_eq_error_iff {V : Type} {tag : Tag} {name input : Text}
    {read : Text → Except Rejection V} {r : Rejection} :
    (readAs name read input : Except Rejection (Wrapped tag V)) = .error r ↔
      ∃ cause, read input = .error cause ∧ r = .named name input cause := by
  unfold readAs
  cases read input <;> simp [eq_comm]

namespace Ty

def core : Ty → Ty
  | .wrapped _ inner => inner.core
  | t => t

def names : Ty → List Text
  | .wrapped tag inner => tag.name?.toList ++ inner.names
  | _ => []

theorem source?_of_core_refuses (t : Ty) : ∀ read ∈ t.core.interface.read?, ∀ input flaw,
    read input = .error flaw → flaw.source? = none := by
  induction t with
  | wrapped tag inner ih => exact ih
  | int f =>
    rintro _ ⟨⟩ input flaw refused
    cases found : FixedInt.read f input <;> simp only [found] at refused <;> cases refused
    rfl
  | float f =>
    rintro _ ⟨⟩ input flaw refused
    cases found : Binary.read f input <;> simp only [found] at refused <;> cases refused
    rfl
  | text =>
    rintro _ ⟨⟩ input flaw refused
    cases refused
  | truth =>
    rintro _ ⟨⟩ input flaw refused
    unfold readTruth at refused
    split at refused
    · cases refused
    · split at refused <;> cases refused
      rfl
  | char =>
    rintro _ ⟨⟩ input flaw refused
    unfold readChar at refused
    split at refused <;> cases refused <;> rfl
  | _ =>
    intro read has
    cases has

theorem refuses_iff (t : Ty) : ∀ read ∈ t.interface.read?, ∃ readCore ∈ t.core.interface.read?,
    ∀ input r, read input = .error r ↔
      ∃ flaw, readCore input = .error flaw ∧ r = under t.names input flaw := by
  -- Each wrapper puts one more name in front of what the types under it report.
  induction t with
  | wrapped tag inner ih =>
    intro read has
    obtain ⟨name, named, readInner, hasInner, rfl⟩ := Tag.mem_forward.mp has
    obtain ⟨readCore, hasCore, deeper⟩ := ih readInner hasInner
    refine ⟨readCore, hasCore, fun input r => ?_⟩
    have outermost (flaw : Rejection) : under (wrapped tag inner).names input flaw =
        .named name input (under inner.names input flaw) := by
      simp only [names, named, Option.toList_some, under, List.singleton_append, List.foldr_cons]
    show Wrapped.readAs name readInner input = .error r ↔ _
    simp only [Wrapped.readAs_eq_error_iff, deeper, outermost]
    constructor
    · rintro ⟨_, ⟨flaw, refused, rfl⟩, rfl⟩
      exact ⟨flaw, refused, rfl⟩
    · rintro ⟨flaw, refused, rfl⟩
      exact ⟨_, ⟨flaw, refused, rfl⟩, rfl⟩
  | _ =>
    intro read has
    refine ⟨read, has, fun input r => ?_⟩
    simp only [names, under, List.foldr_nil]
    exact ⟨fun refused => ⟨r, refused, rfl⟩, fun ⟨_, refused, same⟩ => same ▸ refused⟩

end Ty

namespace Wrapped

variable {tag : Tag} {V : Type} {I : Interface V} {name : Text}

/-- A wrapper under a name accepts and refuses what the wrapped type does, and tells two
refused inputs apart. -/
structure ReadsThrough (tag : Tag) (I : Interface V) (name : Text)
    (read : Text → Except Rejection V) : Prop where
  accepts : ∀ (w : Wrapped tag V) input v,
    perform I w (.parse input) = answer .accepted ⟨v⟩ ↔ read input = .ok v
  refuses : ∀ (w : Wrapped tag V) input,
    (∃ r, perform I w (.parse input) = answer (.rejected r) w) ↔ ∃ cause, read input = .error cause
  reports : ∀ (w : Wrapped tag V) input r, perform I w (.parse input) = answer (.rejected r) w ↔
    ∃ cause, read input = .error cause ∧ Reports name input cause r
  told : ∀ (w w' : Wrapped tag V) a b r r', perform I w (.parse a) = answer (.rejected r) w →
    perform I w' (.parse b) = answer (.rejected r') w' → (r.same r' = true ↔ a = b)

theorem perform_parse_rejected_iff (named : tag.name? = some name)
    {read : Text → Except Rejection V} (has : I.read? = some read) (w : Wrapped tag V)
    (input : Text) (r : Rejection) : perform I w (.parse input) = answer (.rejected r) w ↔
      ∃ cause, read input = .error cause ∧ r = .named name input cause := by
  rw [perform_parse_of_named named, has]
  cases found : read input <;> simp [found, answer, eq_comm]

theorem readsThrough (named : tag.name? = some name) {read : Text → Except Rejection V}
    (has : I.read? = some read) : ReadsThrough tag I name read where
  accepts w input v := by
    rw [perform_parse_of_named named, has]
    cases found : read input <;> simp [found, answer]
  refuses w input := by
    simp only [perform_parse_rejected_iff named has]
    constructor
    · rintro ⟨_, cause, refused, -⟩
      exact ⟨cause, refused⟩
    · rintro ⟨cause, refused⟩
      exact ⟨_, cause, refused, rfl⟩
  reports w input r := by
    rw [perform_parse_rejected_iff named has]
    constructor
    · rintro ⟨cause, refused, rfl⟩
      exact ⟨cause, refused, reports_named name input cause⟩
    · rintro ⟨cause, refused, reports⟩
      exact ⟨cause, refused, reports.parts⟩
  told w w' a b r r' refused refused' := by
    obtain ⟨cause, found, rfl⟩ := (perform_parse_rejected_iff named has w a r).mp refused
    obtain ⟨cause', found', rfl⟩ := (perform_parse_rejected_iff named has w' b r').mp refused'
    rw [same_iff]
    constructor
    · intro same
      exact (Rejection.named.inj same).2.1
    · rintro rfl
      rw [Except.error.inj (found.symm.trans found')]

/-- The wording is the same whatever the specification asks for. Under a wrapper in a wrapper the
cause is the whole refusal that the inner one gives for the input, and so on to the core, which
gives no cause for its own refusals. -/
theorem refusals_faithful (tag : Tag) (inner : Ty)
    (parses : (Ty.wrapped tag inner).interface.has .parse = true) :
    ∃ name read, tag.name? = some name ∧ inner.interface.read? = some read ∧
      ReadsThrough tag inner.interface name read ∧
      (∀ (tag' : Tag) (deeper : Ty), inner = .wrapped tag' deeper →
        ∃ name', tag'.name? = some name' ∧ ∀ input cause, read input = .error cause →
          (∃ cause', Reports name' input cause' cause) ∧ ∀ u : Wrapped tag' deeper.Carrier,
            perform deeper.interface u (.parse input) = answer (.rejected cause) u) ∧
      ∃ readCore ∈ inner.core.interface.read?, ∀ (w : Wrapped tag inner.Carrier) input r,
        perform inner.interface w (.parse input) = answer (.rejected r) w ↔
          ∃ flaw, readCore input = .error flaw ∧ flaw.source? = none ∧
            r = under (name :: inner.names) input flaw := by
  have both : (tag.name?.isSome && inner.interface.read?.isSome) = true :=
    (Tag.isSome_forward _ _ _).symm.trans parses
  obtain ⟨hasName, hasRead⟩ := Bool.and_eq_true_iff.mp both
  obtain ⟨name, named⟩ := Option.isSome_iff_exists.mp hasName
  obtain ⟨read, has⟩ := Option.isSome_iff_exists.mp hasRead
  obtain ⟨readCore, hasCore, levels⟩ := inner.refuses_iff read has
  refine ⟨name, read, named, has, readsThrough named has, ?_, readCore, hasCore, ?_⟩
  · rintro tag' deeper rfl
    obtain ⟨name', named', readDeeper, hasDeeper, rfl⟩ := Tag.mem_forward.mp has
    refine ⟨name', named', fun input cause refused => ?_⟩
    obtain ⟨cause', refused', rfl⟩ := readAs_eq_error_iff.mp refused
    exact ⟨⟨cause', reports_named name' input cause'⟩, fun u =>
      (perform_parse_rejected_iff named' hasDeeper u input _).mpr ⟨cause', refused', rfl⟩⟩
  · intro w input r
    rw [perform_parse_rejected_iff named has]
    constructor
    · rintro ⟨cause, refused, rfl⟩
      obtain ⟨flaw, found, rfl⟩ := (levels input cause).mp refused
      exact ⟨flaw, found, inner.source?_of_core_refuses readCore hasCore input flaw found, rfl⟩
    · rintro ⟨flaw, found, -, rfl⟩
      exact ⟨_, (levels input _).mpr ⟨flaw, found, rfl⟩, rfl⟩

/-- A wrapper in a wrapper, with an input that a quote and a line break are part of and one that
only blanks tell from a number. -/
theorem refusals_faithful_outer :
    let I := Catalogue.meter.interface
    let w : Wrapped Catalogue.outerTag Catalogue.meter.Carrier := ⟨⟨FixedInt.zero .int32⟩⟩
    let quoted := "1'2\n".toList
    let blank := " 12".toList
    let flaw : Rejection := .integer .invalidDigit
    Catalogue.outer.interface.has .parse = true ∧
      (∃ r, perform I w (.parse quoted) = answer (.rejected r) w ∧
        r.message = "Invalid Outer '1'2\n': Invalid Meter '1'2\n': invalid digit found in string".toList ∧
        ∀ r', perform I w (.parse blank) = answer (.rejected r') w → r.same r' = false) ∧
      perform I w (.parse blank) =
        answer (.rejected (under ["Outer".toList, "Meter".toList] blank flaw)) w := by
  intro I w quoted blank flaw
  obtain ⟨name, read, named, has, reads, -, readCore, hasCore, levels⟩ :=
    refusals_faithful Catalogue.outerTag Catalogue.meter rfl
  cases named
  cases hasCore
  have refused (input : Text) (found : FixedInt.read .int32 input = .error .invalidDigit) :
      perform I w (.parse input) =
        answer (.rejected (under ["Outer".toList, "Meter".toList] input flaw)) w :=
    (levels w input _).mpr ⟨flaw, congrArg (Except.mapError Rejection.integer) found, rfl, rfl⟩
  refine ⟨rfl, ⟨_, refused quoted rfl, rfl, fun r' refused' => ?_⟩, refused blank rfl⟩
  refine Bool.eq_false_iff.mpr fun same => ?_
  have inputs : quoted = blank := (reads.told w w _ _ _ _ (refused quoted rfl) refused').mp same
  exact absurd inputs (by decide)

example : (Catalogue.all.filter fun entry => entry.2.interface.has .parse).map Prod.fst =
    ["Meter", "Yard", "Tiny", "Short", "Long", "Huge", "Offset", "Speed", "Port", "NaturalInt",
      "Ticks", "Vast", "Size", "Anon", "Odd", "Plain", "Ratio", "Gain", "Name", "Flag", "Letter",
      "Outer", "LocalTagged"] := by decide

end Wrapped

end Nominal
