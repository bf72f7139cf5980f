import Nominal.Catalogue
import Nominal.Operand
import Nominal.Script.Offer

/-! The operand rule over all types. A wrapper has a binary form for itself and for its
bare type and for nothing else, and because no type is a wrapper of itself, at most one
of the two parts of the rule applies. Seen from the right, a wrapper is an operand of
itself and of the wrappers around it. The steps of a script go by the same rule. -/

namespace Nominal

namespace BinaryForm

/-- Whether a form is a named method. A wrapper has these itself, but it does not pass
them on to a wrapper around it. -/
def isMethod : BinaryForm → Bool
  | .checked _ | .saturating _ => true
  | _ => false

end BinaryForm

def Step.binary? {V : Type} : Step V → Option (BinaryForm × Operand V)
  | .operate op rhs => some (.plain op, rhs)
  | .compound op rhs => some (.compound op, rhs)
  | .relate .eq rhs | .relate .ne rhs => some (.equality, rhs)
  | .relate _ rhs | .partialCompare rhs => some (.order, rhs)
  | .checked op rhs => some (.checked op, rhs)
  | .saturating op rhs => some (.saturating op, rhs)
  | _ => none

def Operand.ty {V : Type} (tag : Tag) (inner : Ty) : Operand V → Ty
  | .bare _ => inner
  | .wrapped _ | .itself => .wrapped tag inner

namespace Ty

def nest : List Tag → Ty → Ty
  | [], t => t
  | tag :: tags, t => wrapped tag (nest tags t)

variable {tag : Tag} {inner right : Ty} {form : BinaryForm}

theorem sizeOf_le_nest (tags : List Tag) (t : Ty) : sizeOf t ≤ sizeOf (nest tags t) := by
  induction tags with
  | nil => exact Nat.le_refl _
  | cons tag tags ih =>
    simp only [nest, wrapped.sizeOf_spec]
    omega

theorem nest_cons_ne (tag : Tag) (tags : List Tag) (t : Ty) : nest (tag :: tags) t ≠ t := by
  intro same
  have larger := sizeOf_le_nest tags t
  have sizes := congrArg sizeOf same
  simp only [nest, wrapped.sizeOf_spec] at sizes
  omega

theorem nest_injective {tags tags' : List Tag} {t : Ty} (same : nest tags t = nest tags' t) :
    tags = tags' := by
  -- An outer tag in excess on either side would make the type a wrapper of itself.
  induction tags generalizing tags' with
  | nil =>
    cases tags' with
    | nil => rfl
    | cons tag' tags' => exact absurd same.symm (nest_cons_ne tag' tags' t)
  | cons tag tags ih =>
    cases tags' with
    | nil => exact absurd same (nest_cons_ne tag tags t)
    | cons tag' tags' =>
      obtain ⟨heads, rests⟩ := wrapped.inj same
      rw [heads, ih rests]

theorem nest_inj {tags tags' : List Tag} {t : Ty} : nest tags t = nest tags' t ↔ tags = tags' := by
  constructor
  · exact nest_injective
  · rintro rfl
    rfl

theorem nest_operand_iff {tags tags' : List Tag} : (nest tags' inner = wrapped tag (nest tags inner) ∨
      nest tags' inner = nest tags inner) ↔ tags' = tag :: tags ∨ tags' = tags := by
  have whole : nest tags' inner = nest (tag :: tags) inner ↔ tags' = tag :: tags := nest_inj
  have within : nest tags' inner = nest tags inner ↔ tags' = tags := nest_inj
  exact or_congr whole within

theorem supports_wrapped (tag : Tag) (inner : Ty) (form : BinaryForm) :
    (wrapped tag inner).supports form =
      (tag.name?.isSome && (!form.isMethod && inner.supports form)) := by
  cases form with
  | checked op => exact (Bool.and_false _).symm
  | saturating op => exact (Bool.and_false _).symm
  | _ => exact Tag.isSome_forward _ _ _

theorem supports_nest_iff (tags : List Tag) (core : Ty) (form : BinaryForm) :
    (nest tags core).supports form = true ↔
      core.supports form = true ∧ ∀ t ∈ tags, t.name?.isSome = true ∧ form.isMethod = false := by
  induction tags with
  | nil => simp [nest]
  | cons tag tags ih =>
    simp only [nest, supports_wrapped, Bool.and_eq_true, ih, List.forall_mem_cons,
      Bool.not_eq_true']
    constructor
    · rintro ⟨named, operator, has, rest⟩
      exact ⟨has, ⟨named, operator⟩, rest⟩
    · rintro ⟨has, ⟨named, operator⟩, rest⟩
      exact ⟨named, operator, has, rest⟩

theorem applies_iff : applies form (wrapped tag inner) right = true ↔
    tag.name?.isSome = true ∧ inner.supports form = true ∧
      (right = wrapped tag inner ∨ right = inner) := by
  by_cases has : tag.name?.isSome = true ∧ inner.supports form = true
  · have listed : rules form (wrapped tag inner) right =
        (if right = wrapped tag inner then [.sameWrapper] else []) ++
          (if right = inner then [.wrappedType] else []) := if_pos has
    simp only [applies, listed, has, true_and]
    by_cases same : right = wrapped tag inner
    · simp [same]
    · by_cases bare : right = inner <;> simp [same, bare]
  · have listed : rules form (wrapped tag inner) right = [] := if_neg has
    simp only [applies, listed, ← and_assoc, has, false_and, List.isEmpty_nil, Bool.not_true,
      Bool.false_eq_true]

/-- The two parts of the rule never apply together. -/
theorem length_rules_le_one (form : BinaryForm) (tag : Tag) (inner right : Ty) :
    (rules form (wrapped tag inner) right).length ≤ 1 := by
  have apart := wrapped_ne_inner tag inner
  simp only [rules]
  split
  · by_cases same : right = wrapped tag inner
    · subst same
      simp [apart]
    · simp only [if_neg same, List.nil_append]
      split <;> simp
  · exact Nat.zero_le 1

theorem isOperand_iff : isOperand (wrapped tag inner) right = true ↔
    right = wrapped tag inner ∨ right = inner := by
  simp only [isOperand, Bool.or_eq_true, decide_eq_true_eq]

theorem applies_wrapped_right_iff {left : Ty} : applies form left (wrapped tag inner) = true ↔
    (left = wrapped tag inner ∧ tag.name?.isSome = true ∧ inner.supports form = true) ∨
      ∃ outer, left = wrapped outer (wrapped tag inner) ∧ outer.name?.isSome = true ∧
        (wrapped tag inner).supports form = true := by
  cases left with
  | wrapped outer within =>
    rw [applies_iff]
    constructor
    · rintro ⟨named, has, same | rfl⟩
      · obtain ⟨rfl, rfl⟩ := wrapped.inj same
        exact .inl ⟨rfl, named, has⟩
      · exact .inr ⟨outer, rfl, named, has⟩
    · rintro (⟨same, named, has⟩ | ⟨other, same, named, has⟩)
      · obtain ⟨rfl, rfl⟩ := wrapped.inj same
        exact ⟨named, has, .inl rfl⟩
      · obtain ⟨rfl, rfl⟩ := wrapped.inj same
        exact ⟨named, has, .inr rfl⟩
  | _ => cases form <;> simp [applies, rules, builtIn]

theorem applies_nest_iff {tags tags' : List Tag} :
    applies form (nest (tag :: tags) inner) (nest tags' inner) = true ↔
      tag.name?.isSome = true ∧ (nest tags inner).supports form = true ∧
        (tags' = tag :: tags ∨ tags' = tags) := by
  rw [nest, applies_iff, nest_operand_iff]

theorem isOperand_nest_iff {tags tags' : List Tag} :
    isOperand (nest (tag :: tags) inner) (nest tags' inner) = true ↔
      tags' = tag :: tags ∨ tags' = tags := by
  rw [nest, isOperand_iff, nest_operand_iff]

theorem not_applies_nest {tags tags' : List Tag} (depth : tags.length = tags'.length)
    (apart : tags ≠ tags') (form : BinaryForm) (t : Ty) :
    applies form (nest tags t) (nest tags' t) = false ∧
      isOperand (nest tags t) (nest tags' t) = false := by
  cases tags with
  | nil => exact absurd (List.length_eq_zero_iff.mp depth.symm).symm apart
  | cons tag tags =>
    have strange : ¬ (tags' = tag :: tags ∨ tags' = tags) := by
      rintro (rfl | rfl)
      · exact apart rfl
      · simp only [List.length_cons] at depth
        omega
    constructor
    · rw [Bool.eq_false_iff, ne_eq, applies_nest_iff]
      rintro ⟨-, -, shape⟩
      exact strange shape
    · rw [Bool.eq_false_iff, ne_eq, isOperand_nest_iff]
      exact strange

theorem not_applies_outward (form : BinaryForm) (t : Ty) (tag : Tag) (tags : List Tag) :
    applies form t (nest (tag :: tags) t) = false := by
  rw [Bool.eq_false_iff, ne_eq, nest, applies_wrapped_right_iff]
  rintro (⟨same, -⟩ | ⟨outer, same, -⟩)
  · exact nest_cons_ne tag tags t same.symm
  · exact nest_cons_ne outer (tag :: tags) t same.symm

theorem result?_eq_some_iff {op : Operator} {left t : Ty} :
    result? op left right = some t ↔ applies (.plain op) left right = true ∧ t = left := by
  rw [result?, Option.ite_none_right_eq_some, Option.some.injEq, eq_comm (a := left)]

end Ty

namespace Wrapped

theorem offers_of_binary? {tag : Tag} {inner : Ty} {W : Type} {s : Step W} {form : BinaryForm}
    {rhs : Operand W} (binary : s.binary? = some (form, rhs)) :
    offers tag inner.interface s = (tag.name?.isSome && inner.supports form) := by
  cases s with
  | operate op rhs =>
    cases binary
    exact Tag.isSome_forward _ _ _
  | compound op rhs =>
    cases binary
    exact Tag.isSome_forward _ _ _
  | relate r rhs =>
    cases r <;> cases binary <;> exact Tag.isSome_forward _ _ _
  | partialCompare rhs =>
    cases binary
    exact Tag.isSome_forward _ _ _
  | checked op rhs =>
    cases binary
    exact Tag.isSome_forward _ _ _
  | saturating op rhs =>
    cases binary
    exact Tag.isSome_forward _ _ _
  | _ => cases binary

theorem perform_binary_iff {tag : Tag} {inner : Ty} (w : Wrapped tag inner.Carrier)
    {s : Step inner.Carrier} {form : BinaryForm} {rhs : Operand inner.Carrier}
    (binary : s.binary? = some (form, rhs)) :
    (perform inner.interface w s).1 ≠ .unsupported ↔
      Ty.applies form (.wrapped tag inner) (rhs.ty tag inner) = true := by
  have shape : rhs.ty tag inner = .wrapped tag inner ∨ rhs.ty tag inner = inner := by
    cases rhs with
    | bare v => exact .inr rfl
    | wrapped v => exact .inl rfl
    | itself => exact .inl rfl
  rw [ne_eq, perform_unsupported_iff, offers_of_binary? binary, Ty.applies_iff,
    Bool.not_eq_false, Bool.and_eq_true]
  simp only [shape, and_true]

/-- The right operand is the wrapper itself or the bare type, by one of the two parts of the rule
alone. Two nests of one depth that differ in a tag are not operands of each other, and no type has
a form with a wrapper around it on the right. -/
theorem applies_exactly (form : BinaryForm) (tag : Tag) (inner : Ty) :
    (∀ right, Ty.applies form (.wrapped tag inner) right = true ↔
        tag.name?.isSome = true ∧ inner.supports form = true ∧
          (right = .wrapped tag inner ∨ right = inner)) ∧
      (∀ tags core, inner = Ty.nest tags core → (inner.supports form = true ↔
        core.supports form = true ∧ ∀ t ∈ tags, t.name?.isSome = true ∧ form.isMethod = false)) ∧
      (∀ right, (Ty.rules form (.wrapped tag inner) right).length ≤ 1) ∧
      (∀ op right t, Ty.result? op (.wrapped tag inner) right = some t ↔
        Ty.applies (.plain op) (.wrapped tag inner) right = true ∧ t = .wrapped tag inner) ∧
      (∀ (w : Wrapped tag inner.Carrier) (s : Step inner.Carrier) (rhs : Operand inner.Carrier),
        s.binary? = some (form, rhs) → ((perform inner.interface w s).1 ≠ .unsupported ↔
          Ty.applies form (.wrapped tag inner) (rhs.ty tag inner) = true)) ∧
      (∀ tags tags', tags.length = tags'.length → tags ≠ tags' →
        Ty.applies form (Ty.nest tags inner) (Ty.nest tags' inner) = false ∧
          Ty.isOperand (Ty.nest tags inner) (Ty.nest tags' inner) = false) ∧
      (∀ left, Ty.applies form left (.wrapped tag inner) = true ↔
        (left = .wrapped tag inner ∧ tag.name?.isSome = true ∧ inner.supports form = true) ∨
          ∃ outer, left = .wrapped outer (.wrapped tag inner) ∧ outer.name?.isSome = true ∧
            (Ty.wrapped tag inner).supports form = true) ∧
      ∀ tags, Ty.applies form inner (Ty.nest (tag :: tags) inner) = false := by
  refine ⟨fun right => Ty.applies_iff, ?_, Ty.length_rules_le_one form tag inner,
    fun op right t => Ty.result?_eq_some_iff,
    fun w s rhs binary => perform_binary_iff w binary,
    fun tags tags' depth apart => Ty.not_applies_nest depth apart form inner,
    fun left => Ty.applies_wrapped_right_iff, Ty.not_applies_outward form inner tag⟩
  rintro tags core rfl
  exact Ty.supports_nest_iff tags core form

theorem applies_exactly_outer :
    [Catalogue.meterTag] ≠ [Catalogue.yardTag] ∧
      Ty.applies (.plain .add) Catalogue.meter Catalogue.yard = false ∧
      Ty.applies (.plain .add) Catalogue.outer Catalogue.meter = true ∧
      Ty.applies (.plain .add) Catalogue.meter Catalogue.outer = false ∧
      Ty.applies (.checked .add) Catalogue.outer Catalogue.meter = false := by
  have apart : [Catalogue.meterTag] ≠ [Catalogue.yardTag] := by decide
  obtain ⟨-, -, -, -, -, depth, -, -⟩ :=
    applies_exactly (.plain .add) Catalogue.meterTag (.int .int32)
  obtain ⟨outer, -, -, -, -, -, -, outward⟩ :=
    applies_exactly (.plain .add) Catalogue.outerTag Catalogue.meter
  obtain ⟨method, -⟩ := applies_exactly (.checked .add) Catalogue.outerTag Catalogue.meter
  refine ⟨apart, (depth [Catalogue.meterTag] [Catalogue.yardTag] rfl apart).1,
    (outer _).mpr ⟨by decide, rfl, .inr rfl⟩, outward [], ?_⟩
  rw [Bool.eq_false_iff, ne_eq, Catalogue.outer, method]
  rintro ⟨-, has, -⟩
  cases has

end Wrapped

end Nominal
