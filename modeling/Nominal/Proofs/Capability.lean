import Nominal.Proofs.Interface.Consistent
import Nominal.Proofs.Nest

/-! The capabilities of a nest. A wrapper takes over what the wrapped type has, part of it
under any tag and the rest under a tag with a name, and each operation is taken over by
itself although some presuppose others. So a nest whose tags all have names has what its
core has, and one tag without a name, at whatever level, leaves the first part alone. -/

namespace Nominal

variable {V : Type}

/-- The capabilities that a wrapper takes over under any tag. -/
def Capability.unqualified : Capability → Bool
  | .clone | .copy | .default | .send | .sync => true
  | _ => false

def Capability.compares : Capability → Bool
  | .eq | .ord | .hash => true
  | _ => false

namespace Interface

theorem mem_capabilities_iff (I : Interface V) (c : Capability) :
    c ∈ I.capabilities ↔ I.has c = true := by
  have listed : c ∈ Capability.all := by cases c <;> decide
  rw [capabilities, List.mem_filter]
  exact and_iff_right listed

theorem has_step_iff (I : Interface V) : I.has .step = true ↔
    I.one?.isSome = true ∧ (I.assign? .add).isSome = true ∧ (I.assign? .sub).isSome = true := by
  simp only [has, step?]
  cases I.one? <;> cases I.assign? .add <;> cases I.assign? .sub <;> simp

theorem has_wrap (I : Interface V) (tag : Tag) (c : Capability) :
    (I.wrap tag).has c = ((c.unqualified || tag.name?.isSome) && I.has c) := by
  cases c with
  | clone => rfl
  | copy => rfl
  | send => rfl
  | sync => rfl
  | default => exact Option.isSome_map
  | eq => rfl
  | step => exact Wrapped.isSome_step?_wrap I tag
  | _ => exact Tag.isSome_forward _ _ _

theorem mem_capabilities_wrapped_iff (tag : Tag) (inner : Ty) {c : Capability}
    (qualified : c.unqualified = false) : c ∈ (Ty.wrapped tag inner).capabilities ↔
      tag.name?.isSome = true ∧ inner.interface.has c = true := by
  have wrapped := has_wrap inner.interface tag c
  rw [qualified, Bool.false_or] at wrapped
  exact (mem_capabilities_iff _ c).trans (wrapped ▸ Bool.and_eq_true_iff)

theorem Consistent.nest {I : Interface V} (core : I.Consistent) (tags : List Tag) :
    (I.nest tags).Consistent := by
  induction tags with
  | nil => exact core
  | cons tag tags ih => exact ih.wrap tag

theorem has_nest (I : Interface V) (tags : List Tag) (c : Capability) :
    (I.nest tags).has c = ((c.unqualified || tags.all fun t => t.name?.isSome) && I.has c) := by
  induction tags with
  | nil =>
    simp only [List.all_nil, Bool.or_true, Bool.true_and]
    rfl
  | cons tag tags ih =>
    calc (I.nest (tag :: tags)).has c
      _ = ((c.unqualified || tag.name?.isSome) && (I.nest tags).has c) :=
        has_wrap (I.nest tags) tag c
      _ = ((c.unqualified || (tag :: tags).all fun t => t.name?.isSome) && I.has c) := by
        rw [ih, List.all_cons]
        cases c.unqualified <;> simp [Bool.and_assoc]

theorem capabilities_nest_congr (I : Interface V) (tags tags' : List Tag)
    (same : (∀ t ∈ tags, t.name?.isSome = true) ↔ ∀ t ∈ tags', t.name?.isSome = true) :
    (I.nest tags).capabilities = (I.nest tags').capabilities := by
  have all : (tags.all fun t => t.name?.isSome) = tags'.all fun t => t.name?.isSome := by
    rw [Bool.eq_iff_iff, List.all_eq_true, List.all_eq_true]
    exact same
  apply List.filter_congr
  intro c _
  rw [has_nest, has_nest, all]

theorem capabilities_nest_of_named (I : Interface V) {tags : List Tag}
    (named : ∀ t ∈ tags, t.name?.isSome = true) : (I.nest tags).capabilities = I.capabilities :=
  capabilities_nest_congr I tags [] (iff_of_true named (by simp))

theorem capabilities_nest_of_nameless (I : Interface V) {tags : List Tag}
    (nameless : ∃ t ∈ tags, t.name? = none) :
    (I.nest tags).capabilities = I.capabilities.filter Capability.unqualified := by
  obtain ⟨t, mem, nameless⟩ := nameless
  have missing : (tags.all fun t => t.name?.isSome) = false := by
    rw [List.all_eq_false]
    exact ⟨t, mem, by simp [nameless]⟩
  rw [capabilities, capabilities, List.filter_filter]
  apply List.filter_congr
  intro c _
  rw [has_nest, missing, Bool.or_false]

/-- A nest has the capabilities of its core if all the tags have names, and so those of a single
wrapper; otherwise it has only those of its core that a wrapper takes over under any tag. Nothing
else about the tags matters. -/
theorem nest_capabilities (I : Interface V) (tag : Tag) (tags : List Tag) :
    ((∀ t ∈ tag :: tags, t.name?.isSome = true) →
        (I.nest (tag :: tags)).capabilities = I.capabilities ∧
          ∀ single, single.name?.isSome = true →
            (I.nest (tag :: tags)).capabilities = (I.wrap single).capabilities) ∧
      ((∃ t ∈ tag :: tags, t.name? = none) →
        (I.nest (tag :: tags)).capabilities = I.capabilities.filter Capability.unqualified) ∧
      (∀ levels, Capability.step ∈ (I.nest levels).capabilities ↔
        (I.nest levels).one?.isSome = true ∧ ((I.nest levels).assign? .add).isSome = true ∧
          ((I.nest levels).assign? .sub).isSome = true) ∧
      (∀ tags', ((∀ t ∈ tag :: tags, t.name?.isSome = true) ↔
          ∀ t ∈ tags', t.name?.isSome = true) →
        (I.nest (tag :: tags)).capabilities = (I.nest tags').capabilities) ∧
      (I.Consistent → (I.nest (tag :: tags)).Consistent) := by
  refine ⟨fun named => ⟨capabilities_nest_of_named I named, ?_⟩,
    capabilities_nest_of_nameless I, ?_, capabilities_nest_congr I (tag :: tags),
    fun core => core.nest (tag :: tags)⟩
  · intro single has
    have one : ∀ t ∈ [single], t.name?.isSome = true := by
      intro t mem
      rw [List.mem_singleton.mp mem]
      exact has
    exact capabilities_nest_congr I (tag :: tags) [single] (iff_of_true named one)
  · intro levels
    rw [mem_capabilities_iff, has_step_iff]

theorem nest_capabilities_outer :
    let I := Interface.integer .int32
    Catalogue.outer.capabilities = Catalogue.meter.capabilities ∧
      (I.nest [Catalogue.outerTag, Catalogue.untaggedTag]).capabilities =
        [.clone, .copy, .default, .send, .sync] ∧
      (I.nest [Catalogue.localTag]).capabilities = Catalogue.meter.capabilities ∧
      (I.nest [Catalogue.outerTag, Catalogue.meterTag]).Consistent := by
  intro I
  obtain ⟨named, -, -, -, consistent⟩ := nest_capabilities I Catalogue.outerTag [Catalogue.meterTag]
  obtain ⟨-, nameless, -, -, -⟩ := nest_capabilities I Catalogue.outerTag [Catalogue.untaggedTag]
  obtain ⟨-, -, -, indifferent, -⟩ := nest_capabilities I Catalogue.localTag []
  refine ⟨(named (by decide)).2 Catalogue.meterTag rfl, ?_,
    indifferent [Catalogue.meterTag] (iff_of_true (by decide) (by decide)),
    consistent (consistent_integer .int32)⟩
  rw [nameless ⟨Catalogue.untaggedTag, by decide, rfl⟩]
  rfl

end Interface

namespace Ty

/-- Whether the values of a type are made of exact ones, under wrappers with names. An
address is exact, whatever it leads to. -/
def isExact : Ty → Bool
  | float _ => false
  | pair first second => first.isExact && second.isExact
  | option inner | list inner | shared inner | view inner => inner.isExact
  | wrapped tag inner => tag.name?.isSome && inner.isExact
  | _ => true

theorem has_eq_isExact (t : Ty) {c : Capability} (compares : c.compares = true) :
    t.interface.has c = t.isExact := by
  induction t with
  | pair first second ihFirst ihSecond =>
    rw [isExact, ← ihFirst, ← ihSecond]
    cases c with
    | eq => rfl
    | ord | hash => exact Interface.isSome_both _ _ _
    | _ => cases compares
  | option inner ih | list inner ih =>
    rw [isExact, ← ih]
    cases c with
    | eq => rfl
    | ord | hash => exact Option.isSome_map
    | _ => cases compares
  | shared inner ih | view inner ih =>
    rw [isExact, ← ih]
    cases c <;> cases compares <;> rfl
  | wrapped tag inner ih =>
    have qualified : c.unqualified = false := by cases c <;> cases compares <;> rfl
    calc (inner.interface.wrap tag).has c
      _ = (tag.name?.isSome && inner.interface.has c) := by
        rw [Interface.has_wrap, qualified, Bool.false_or]
      _ = (wrapped tag inner).isExact := by rw [ih, isExact]
  | _ => cases c <;> cases compares <;> rfl

theorem mem_capabilities_iff_isExact (t : Ty) {c : Capability} (compares : c.compares = true) :
    c ∈ t.capabilities ↔ t.isExact = true := by
  rw [← t.has_eq_isExact compares]
  exact t.interface.mem_capabilities_iff c

end Ty

end Nominal
