import Nominal.Proofs.Text.Legible
import Nominal.Rejection

/-! Rejections as they are shown for inspection. The text tells the rejection, whatever the
names, inputs and causes in it look like and however deep the causes are nested. In one line
there are no line breaks of their own, and in several lines each field has exactly one. -/

namespace Nominal

open Text

namespace Rejection

theorem legible_integerFlaw : Legible fun flaw : IntegerFlaw => flaw.label.toList := by
  apply Legible.of_isWord
  · intro flaw
    cases flaw <;> rfl
  · intro flaw flaw'
    cases flaw <;> cases flaw' <;> decide

theorem legible_floatFlaw : Legible fun flaw : FloatFlaw => flaw.label.toList := by
  apply Legible.of_isWord
  · intro flaw
    cases flaw <;> rfl
  · intro flaw flaw'
    cases flaw <;> cases flaw' <;> decide

theorem legible_charFlaw : Legible fun flaw : CharFlaw => flaw.label.toList := by
  apply Legible.of_isWord
  · intro flaw
    cases flaw <;> rfl
  · intro flaw flaw'
    cases flaw <;> cases flaw' <;> decide

theorem legible_debugKind {F : Type} {label : F → String}
    (legible : Legible fun flaw => (label flaw).toList) (s : Spec) (name : String) :
    Legible fun flaw => debugKind s name (label flaw) := by
  intro flaw flaw' t u _ _ same
  have fields := Spec.record_append_inj (List.cons_ne_nil _ _) (List.cons_ne_nil _ _) (by simp)
    (by simpa using legible.apart flaw flaw') same
  exact legible.injective (congrArg Prod.snd (List.head_eq_of_cons_eq fields))

theorem debug_named (s : Spec) (name input : Text) (cause : Rejection) :
    (named name input cause).debug s =
      s.record "ParseStrongError".toList
        [("name".toList, Text.quoted name), ("input".toList, Text.quoted input),
          ("cause".toList, cause.debug s)] := rfl

inductive Kind where
  | integer
  | float
  | truth
  | char
  | words
  | named
  deriving DecidableEq

def kind : Rejection → Kind
  | .integer _ => .integer
  | .float _ => .float
  | .truth => .truth
  | .char _ => .char
  | .words _ => .words
  | .named _ _ _ => .named

def Kind.lead : Kind → Text
  | .integer => "ParseIntError".toList
  | .float => "ParseFloatError".toList
  | .truth => "ParseBoolError".toList
  | .char => "ParseCharError".toList
  | .words => ['"']
  | .named => "ParseStrongError".toList

theorem lead_prefix_debug (s : Spec) (r : Rejection) : r.kind.lead <+: r.debug s := by
  cases r with
  | truth => exact List.prefix_rfl
  | words t => exact ⟨_, rfl⟩
  | _ => exact Spec.prefix_record _ _ _

theorem Kind.eq_of_comparable {k k' : Kind} (comparable : k.lead <+: k'.lead ∨ k'.lead <+: k.lead) :
    k = k' := by
  revert comparable
  cases k <;> cases k' <;> decide

theorem kind_eq {s : Spec} {r r' : Rejection} {t u : Text}
    (same : r.debug s ++ t = r'.debug s ++ u) : r.kind = r'.kind := by
  have left : r.kind.lead <+: r.debug s ++ t :=
    (lead_prefix_debug s r).trans (List.prefix_append _ _)
  have right : r'.kind.lead <+: r.debug s ++ t :=
    same ▸ (lead_prefix_debug s r').trans (List.prefix_append _ _)
  exact Kind.eq_of_comparable (List.prefix_or_prefix_of_prefix left right)

theorem legible_debug (s : Spec) : Legible (debug s) := by
  intro r
  -- The beginning tells the constructor. A cause is followed by what closes its record, so the
  -- induction is for any text that can follow.
  induction r with
  | integer flaw =>
    intro r' t u ht hu same
    cases r' with
    | integer flaw' =>
      rw [legible_debugKind legible_integerFlaw s _ flaw flaw' t u ht hu same]
    | _ => cases kind_eq same
  | float flaw =>
    intro r' t u ht hu same
    cases r' with
    | float flaw' =>
      rw [legible_debugKind legible_floatFlaw s _ flaw flaw' t u ht hu same]
    | _ => cases kind_eq same
  | truth =>
    intro r' t u _ _ same
    cases r' with
    | truth => rfl
    | _ => cases kind_eq same
  | char flaw =>
    intro r' t u ht hu same
    cases r' with
    | char flaw' =>
      rw [legible_debugKind legible_charFlaw s _ flaw flaw' t u ht hu same]
    | _ => cases kind_eq same
  | words x =>
    intro r' t u _ _ same
    cases r' with
    | words y => rw [quoted_append_inj same]
    | _ => cases kind_eq same
  | named name input cause ih =>
    intro r' t u _ _ same
    cases r' with
    | named name' input' cause' =>
      have causes : Apart (cause.debug s) (cause'.debug s) := by
        intro x y hx hy alike
        rw [ih cause' x y hx hy alike]
      have names := Legible.quoted.apart name name'
      have inputs := Legible.quoted.apart input input'
      have fields := Spec.record_append_inj (List.cons_ne_nil _ _) (List.cons_ne_nil _ _) (by simp)
        (by simpa using ⟨names, inputs, causes⟩) same
      simp only [List.cons.injEq, Prod.mk.injEq, true_and, and_true] at fields
      obtain ⟨sameName, sameInput, sameCause⟩ := fields
      rw [Legible.quoted.injective sameName, Legible.quoted.injective sameInput,
        ih cause' [] [] rfl rfl (by rw [sameCause])]
    | _ => cases kind_eq same

theorem newline_not_mem_fieldText {label value : Text} (outside : '\n' ∉ label)
    (inside : '\n' ∉ value) : '\n' ∉ Spec.fieldText (label, value) := by
  simp [Spec.fieldText, outside, inside]

theorem newline_not_mem_debugKind {s : Spec} (layout : s.alternate = false) {name label : String}
    (outside : '\n' ∉ name.toList) (inside : '\n' ∉ label.toList) :
    '\n' ∉ debugKind s name label := by
  apply Spec.newline_not_mem_record layout outside
  rw [List.forall_mem_singleton]
  exact newline_not_mem_fieldText (by decide) inside

theorem newline_not_mem_debug {s : Spec} (layout : s.alternate = false) (r : Rejection) :
    '\n' ∉ r.debug s := by
  induction r with
  | integer flaw => exact newline_not_mem_debugKind layout (by decide) (by cases flaw <;> decide)
  | float flaw => exact newline_not_mem_debugKind layout (by decide) (by cases flaw <;> decide)
  | truth => exact (by decide : '\n' ∉ "ParseBoolError".toList)
  | char flaw => exact newline_not_mem_debugKind layout (by decide) (by cases flaw <;> decide)
  | words t => exact newline_not_mem_quoted t
  | named name input cause ih =>
    apply Spec.newline_not_mem_record layout (by decide)
    simp only [List.forall_mem_cons]
    exact ⟨newline_not_mem_fieldText (by decide) (newline_not_mem_quoted name),
      newline_not_mem_fieldText (by decide) (newline_not_mem_quoted input),
      newline_not_mem_fieldText (by decide) ih, nofun⟩

theorem length_splitOn_debug_named {s : Spec} (layout : s.alternate = true) {cause : Rejection}
    (single : '\n' ∉ cause.debug s) (name input : Text) :
    (((named name input cause).debug s).splitOn '\n').length = 5 := by
  have inline : ∀ field ∈ [("name".toList, quoted name), ("input".toList, quoted input),
      ("cause".toList, cause.debug s)], '\n' ∉ Spec.fieldText field := by
    simp only [List.forall_mem_cons]
    exact ⟨newline_not_mem_fieldText (by decide) (newline_not_mem_quoted name),
      newline_not_mem_fieldText (by decide) (newline_not_mem_quoted input),
      newline_not_mem_fieldText (by decide) single, nofun⟩
  rw [debug_named, Spec.splitOn_record layout (by decide) (List.cons_ne_nil _ _) inline]
  simp

/-- The text of a rejection tells the rejection, and with a cause in words it tells the three
texts. It takes one line in the compact layout and five in the alternate one. -/
theorem debug_identifies {s : Spec} (fits : s.InRange) :
    (∀ r : Rejection, r.write .debug s = .ok (r.debug s)) ∧
      (∀ r r' : Rejection, r.debug s = r'.debug s ↔ r = r') ∧
      (∀ name input cause name' input' cause' : Text,
        (named name input (.words cause)).debug s = (named name' input' (.words cause')).debug s ↔
          name = name' ∧ input = input' ∧ cause = cause') ∧
      (s.alternate = false → ∀ r : Rejection, '\n' ∉ r.debug s) ∧
      (s.alternate = true → ∀ name input cause : Text,
        (((named name input (.words cause)).debug s).splitOn '\n').length = 5) := by
  have identifies (r r' : Rejection) : r.debug s = r'.debug s ↔ r = r' :=
    ⟨(legible_debug s).injective, congrArg _⟩
  refine ⟨fun r => if_pos fits, identifies, ?_, newline_not_mem_debug, ?_⟩
  · intro name input cause name' input' cause'
    rw [identifies]
    simp
  · intro layout name input cause
    have single : '\n' ∉ (words cause).debug s := newline_not_mem_quoted cause
    exact length_splitOn_debug_named layout single name input

theorem debug_identifies_hostile :
    let r := named "a\", input: \"b".toList "c".toList (.words "d,\n    cause: \"e".toList)
    let r' := named "a".toList "b\", input: \"c".toList (.words "d,\n    cause: \"e".toList)
    let pretty : Spec := { alternate := true }
    r.debug Spec.plain ≠ r'.debug Spec.plain ∧ '\n' ∉ r.debug Spec.plain ∧
      r.debug pretty ≠ r'.debug pretty ∧ ((r.debug pretty).splitOn '\n').length = 5 := by
  intro r r' pretty
  obtain ⟨-, -, compact, inline, -⟩ := debug_identifies (s := Spec.plain) (by decide)
  obtain ⟨-, -, laid, -, lines⟩ := debug_identifies (s := pretty) (by decide)
  have names : "a\", input: \"b".toList ≠ "a".toList := by decide
  exact ⟨fun same => names ((compact _ _ _ _ _ _).mp same).1, inline rfl r,
    fun same => names ((laid _ _ _ _ _ _).mp same).1, lines rfl _ _ _⟩

end Rejection

end Nominal
