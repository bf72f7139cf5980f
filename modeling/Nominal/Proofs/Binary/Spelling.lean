import Nominal.Proofs.Binary.Notation
import Nominal.Proofs.Binary.Order
import Nominal.Proofs.Binary.Shortest
import Nominal.Proofs.Spelling

/-! Texts of wrapped floating-point numbers. A number is written by the shortest decimal that is
read as it, in positional notation and with its sign, so it comes back with all of its bits. What
is read is always the number nearest to the decimal. -/

namespace Nominal

namespace Binary

variable {f : FloatFormat}

theorem display_nan : (nan : Binary f).display Spec.plain = "NaN".toList := Spec.pad_plain .right _

theorem display_number (negative : Bool) {m : Nat} (bounded : m ≤ f.infinite) :
    (number negative m bounded).display Spec.plain =
      (if negative then ['-'] else []) ++ magnitudeText f .display Spec.plain m :=
  Spec.pad_plain .right _

theorem magnitudeText_infinite :
    magnitudeText f .display Spec.plain f.infinite = "inf".toList := if_pos rfl

theorem magnitudeText_finite {m : Nat} (finite : m ≠ f.infinite) :
    magnitudeText f .display Spec.plain m = positional (Decimal.shortest f m) := if_neg finite

theorem read_display {v : Binary f} : read f (v.display Spec.plain) = .ok v := by
  cases v with
  | nan =>
    rw [display_nan]
    rfl
  | number negative m bounded =>
    rw [display_number]
    by_cases infinite : m = f.infinite
    · subst infinite
      rw [magnitudeText_infinite]
      cases negative <;> rfl
    · have finite := Nat.lt_of_le_of_ne bounded infinite
      obtain ⟨d, written, same⟩ := writes_positional (Decimal.shortest f m)
      have exact : d.nearest f = m :=
        (Decimal.nearest_congr same).trans (Decimal.isShortest_shortest finite).reads
      rw [magnitudeText_finite infinite, read_of_writes written]
      simp only [exact]

end Binary

namespace Wrapped

open FloatFormat.Pattern

variable {tag : Tag} {f : FloatFormat} {name : Text}

/-- Writing and reading go by what patterns stand for. -/
structure SpellsPatterns (tag : Tag) (f : FloatFormat) : Prop where
  undone : ∀ x : f.Pattern, ¬ x.IsNan → ∃ t,
    perform (.float f) (ofPattern tag x) (.display Spec.plain) =
        answer (.text t) (ofPattern tag x) ∧
      ∀ w, perform (.float f) w (.parse t) = answer .accepted (ofPattern tag x)
  bits : ∀ x : f.Pattern, ¬ x.IsNan → (ofPattern tag x).value.bits? = some x.toNat
  nan : ∀ x : f.Pattern, x.IsNan →
    perform (.float f) (ofPattern tag x) (.display Spec.plain) =
        answer (.text "NaN".toList) (ofPattern tag x) ∧
      ∃ z : f.Pattern, z.IsNan ∧
        ∀ w, perform (.float f) w (.parse "NaN".toList) = answer .accepted (ofPattern tag z)
  shortest : ∀ x : f.Pattern, ¬ x.IsNan → ¬ x.IsInfinite → ∃ d t,
    Decimal.IsShortest f x.magnitude d ∧ (∃ d', Binary.Writes t d' ∧ d'.value = d.value) ∧
      (∀ c ∈ t, c.isDigit = true ∨ c = '.') ∧
      perform (.float f) (ofPattern tag x) (.display Spec.plain) =
        answer (.text ((if x.negative then ['-'] else []) ++ t)) (ofPattern tag x)
  rounded : ∀ t rest negative d, Binary.takeSign t = (negative, rest) →
    Binary.readDecimal? rest = some d → ∃ z : f.Pattern,
      z.negative = negative ∧ f.IsNearest (d.value * 2 ^ f.scale) z.magnitude ∧
      ∀ w, perform (.float f) w (.parse t) = answer .accepted (ofPattern tag z)

section Named

variable (named : tag.name? = some name)
include named

theorem perform_display_float (w : Wrapped tag (Binary f)) :
    perform (.float f) w (.display Spec.plain) =
      answer (.text (w.value.display Spec.plain)) w :=
  perform_display_plain (Interface.display?_wrap named rfl) w

theorem perform_parse_float {t : Text} {v : Binary f} (read : Binary.read f t = .ok v)
    (w : Wrapped tag (Binary f)) :
    perform (.float f) w (.parse t) = answer .accepted ⟨v⟩ := by
  simp only [perform_parse_of_named named, Interface.float, read]
  rfl

theorem spells_patterns : SpellsPatterns tag f where
  undone x _ := ⟨_, perform_display_float named _, perform_parse_float named Binary.read_display⟩
  bits _ := bits?_number
  nan x nan := by
    have same : x.number = .nan := number_eq_nan_iff.mpr nan
    refine ⟨?_, x, nan, fun w => ?_⟩
    · rw [perform_display_float named, ofPattern, same, Binary.display_nan]
    · rw [ofPattern, same]
      exact perform_parse_float named rfl w
  shortest x ordered finite := by
    obtain ⟨bounded, same⟩ := exists_number ordered
    rw [isInfinite_iff] at finite
    obtain ⟨d, written, value⟩ := Binary.writes_positional (Decimal.shortest f x.magnitude)
    refine ⟨_, _, Decimal.isShortest_shortest (Nat.lt_of_le_of_ne bounded finite),
      ⟨d, written, value⟩, written.plain, ?_⟩
    rw [perform_display_float named, ofPattern, same, Binary.display_number,
      Binary.magnitudeText_finite finite]
  rounded t rest negative d signed decimal := by
    obtain ⟨z, found⟩ :=
      exists_pattern (Binary.number negative (d.nearest f) (d.nearest_le_infinite f))
    obtain ⟨-, sign, magnitude⟩ := parts_of_number found
    refine ⟨z, sign, magnitude ▸ d.nearest_isNearest, fun w => ?_⟩
    rw [perform_parse_float named (Binary.read_eq signed decimal), ofPattern, found]

end Named

theorem spells_patterns_ratio :
    let tag : Tag := .named "Ratio"
    let least : FloatFormat.Pattern .double := .ofNat _ 0x8000000000000001
    let nan : FloatFormat.Pattern .double := .ofNat _ 0xFFF0000000000001
    (∃ t, perform (.float .double) (ofPattern tag least) (.display Spec.plain) =
          answer (.text t) (ofPattern tag least) ∧
        perform (.float .double) (ofPattern tag nan) (.parse t) =
          answer .accepted (ofPattern tag least)) ∧
      perform (.float .double) (ofPattern tag nan) (.display Spec.plain) =
        answer (.text "NaN".toList) (ofPattern tag nan) ∧
      ∃ z : FloatFormat.Pattern .double, z.negative = true ∧
        perform (.float .double) (ofPattern tag nan) (.parse "-.1E+400".toList) =
          answer .accepted (ofPattern tag z) := by
  intro tag least nan
  have named : tag.name? = some "Ratio".toList := rfl
  have spells : SpellsPatterns tag .double := spells_patterns named
  obtain ⟨t, written, read⟩ := spells.undone least (by decide)
  obtain ⟨z, negative, -, accepted⟩ := spells.rounded "-.1E+400".toList ".1E+400".toList true
    ⟨1, 399⟩ rfl rfl
  exact ⟨⟨t, written, read _⟩, (spells.nan nan (by decide)).1, z, negative, accepted _⟩

end Wrapped

end Nominal
