import Nominal.Proofs.Capability
import Nominal.Proofs.Interface.Digest

/-! Digests of a wrapper. A wrapper feeds what its value feeds, under one name or under many,
and no byte of its own. Equal values feed the same bytes, and of two different values
neither feeds the beginning of what the other feeds. -/

namespace Nominal

variable {V : Type}

theorem Interface.hash?_nest {I : Interface V} {feed : V → List UInt8} (hash : I.hash? = some feed)
    {tags : List Tag} (named : ∀ t ∈ tags, t.name?.isSome = true) :
    (I.nest tags).hash? = some fun w => feed (Nest.core tags w) := by
  induction tags with
  | nil => exact hash
  | cons tag tags ih =>
    rw [List.forall_mem_cons] at named
    obtain ⟨name, outer⟩ := Option.isSome_iff_exists.mp named.1
    rw [Interface.nest, Interface.wrap, ih named.2]
    exact Tag.forward_named outer _ _

namespace Wrapped

/-- What a digest may rely on: the bytes are those of the value at the core, whatever the
names around it, the test for equality is equality, and the bytes of values that fit can be
told apart, one value from another and one list of values from another of its length. -/
structure DigestsBy (tag : Tag) (I : Interface V) (fits : V → Prop) (feed : V → List UInt8) :
    Prop where
  stream : ∀ tags : List Tag, (∀ t ∈ tags, t.name?.isSome = true) →
    ∀ w : Wrapped tag (Nest tags V),
      perform (I.nest tags) w .hash = answer (.bytes (feed (Nest.core tags w.value))) w
  equal_iff : ∀ (w : Wrapped tag V) rhs,
    perform I w (.relate .eq rhs) = answer (.truth true) w ↔ w.value = rhs.contribution w.value
  prefix_iff : ∀ x y, fits x → fits y → (feed x <+: feed y ↔ x = y)
  same_iff : ∀ x y, fits x → fits y → (feed x = feed y ↔ x = y)
  lists : ∀ xs ys : List V, xs.length = ys.length → (∀ x ∈ xs, fits x) → (∀ y ∈ ys, fits y) →
    (xs.flatMap feed = ys.flatMap feed ↔ xs = ys)

theorem digestsBy {tag : Tag} {I : Interface V} {fits : V → Prop} {feed : V → List UInt8}
    {equal : V → V → Bool} (named : tag.name?.isSome = true) (hash : I.hash? = some feed)
    (delimits : SelfDelimiting fits feed) (has : I.equal? = some equal)
    (decides : ∀ a b, equal a b = true ↔ a = b) : DigestsBy tag I fits feed := by
  obtain ⟨name, named⟩ := Option.isSome_iff_exists.mp named
  refine ⟨fun tags all w => ?_, fun w rhs => ?_, fun x y => delimits.prefix_iff, ?_, ?_⟩
  · have nest := Interface.hash?_nest hash all
    simp only [perform, Interface.wrap, nest, Tag.forward_named named]
    rfl
  · simp only [perform, Relation.decide?, equal?_eq, has, Tag.forward_named named]
    rw [← decides]
    constructor
    · intro told
      simpa [inform, answer] using told
    · intro found
      rw [found]
      rfl
  · intro x y hx hy
    constructor
    · intro same
      exact (delimits.prefix_iff hx hy).mp (same ▸ List.prefix_rfl)
    · exact congrArg feed
  · intro xs ys long hx hy
    constructor
    · intro same
      have closed : xs.flatMap feed ++ [] = ys.flatMap feed ++ [] := by rw [same]
      exact delimits.eq_of_flatMap long hx hy closed
    · exact congrArg (List.flatMap feed)

/-- Lists in a value must be short enough for their count, and addresses small enough for the
machine; in types without lists and addresses every value fits. -/
theorem digest_prefix_free (tag : Tag) (inner : Ty) :
    (Capability.hash ∈ (Ty.wrapped tag inner).capabilities ↔
      (Ty.wrapped tag inner).isExact = true) ∧
    (Capability.hash ∈ (Ty.wrapped tag inner).capabilities →
      ∃ feed, DigestsBy tag inner.interface inner.Addressable feed) ∧
    (inner.isFlat = true → ∀ v, inner.Addressable v) := by
  refine ⟨Ty.mem_capabilities_iff_isExact _ rfl, fun hashable => ?_, inner.addressable_of_isFlat⟩
  obtain ⟨named, has⟩ := (Interface.mem_capabilities_wrapped_iff tag inner rfl).mp hashable
  obtain ⟨feed, hash⟩ := Option.isSome_iff_exists.mp has
  have exact : inner.isExact = true := (inner.has_eq_isExact rfl).symm.trans has
  have reflexive : inner.interface.has .eq = true := (inner.has_eq_isExact rfl).trans exact
  have compares := inner.consistent.equal_of_reflexive reflexive
  obtain ⟨equal, he⟩ := Option.isSome_iff_exists.mp compares
  have decides := inner.decidesEquality reflexive equal he
  exact ⟨feed, digestsBy named hash (inner.selfDelimiting feed hash) he decides⟩

/-- A name that continues another does not continue its bytes. -/
theorem digest_prefix_free_name :
    let short : Wrapped Catalogue.nameTag Text := ⟨"Zo".toList⟩
    let long : Wrapped Catalogue.nameTag Text := ⟨"Zoë".toList⟩
    Capability.hash ∈ Catalogue.name.capabilities ∧
      ∃ front back, perform Interface.text short .hash = answer (.bytes front) short ∧
        perform Interface.text long .hash = answer (.bytes back) long ∧ ¬ front <+: back := by
  intro short long
  obtain ⟨exact, laws, fits⟩ := digest_prefix_free Catalogue.nameTag .text
  have hashable : Capability.hash ∈ Catalogue.name.capabilities := exact.mpr rfl
  obtain ⟨feed, digests⟩ := laws hashable
  refine ⟨hashable, feed short.value, feed long.value, digests.stream [] (by simp) short,
    digests.stream [] (by simp) long, ?_⟩
  intro continued
  have same : "Zo".toList = "Zoë".toList :=
    (digests.prefix_iff _ _ (fits rfl _) (fits rfl _)).mp continued
  exact absurd same (by decide)

end Wrapped

end Nominal
