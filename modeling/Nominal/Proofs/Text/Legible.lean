import Nominal.Proofs.Text.Layout
import Nominal.Proofs.Text.Quoted

/-! Values that are shown in such a way that they can be read back, whatever of the
characters that can follow a part comes next. Quoted texts show where they end, other values
are shown without any of those characters, and brackets, labels and lists around legible
parts are legible too. -/

namespace Nominal

open Text

variable {V W : Type}

/-- Whatever follows, a text tells which value it shows. -/
def Legible (shown : V → Text) : Prop :=
  ∀ v w s t, follows s = true → follows t = true → shown v ++ s = shown w ++ t → v = w

namespace Legible

variable {shown : V → Text}

theorem apart (legible : Legible shown) (v w : V) : Apart (shown v) (shown w) := by
  intro s t hs ht same
  rw [legible v w s t hs ht same]

theorem injective (legible : Legible shown) {v w : V} (same : shown v = shown w) : v = w :=
  legible v w [] [] rfl rfl (by rw [same])

theorem of_append (delimits : ∀ v w s t, shown v ++ s = shown w ++ t → v = w) : Legible shown :=
  fun v w s t _ _ => delimits v w s t

theorem of_isWord (words : ∀ v, isWord (shown v) = true)
    (injective : ∀ v w, shown v = shown w → v = w) : Legible shown := by
  have ends (v : V) {s : Text} (follow : follows s = true) :
      (shown v ++ s).takeWhile (fun c => !isFollowing c) = shown v := by
    rw [List.takeWhile_append_of_pos (List.all_eq_true.mp (words v))]
    cases s with
    | nil => exact List.append_nil _
    | cons c s =>
      have following : isFollowing c = true := follow
      rw [List.takeWhile_cons_of_neg (by simp [following]), List.append_nil]
  intro v w s t hs ht same
  apply injective
  rw [← ends v hs, same, ends w ht]

theorem of_key (legible : Legible shown) {key : W → V}
    (injective : ∀ a b, key a = key b → a = b) : Legible fun w => shown (key w) :=
  fun a b s t hs ht same => injective a b (legible _ _ s t hs ht same)

theorem append_left (legible : Legible shown) (lead : Text) :
    Legible fun v => lead ++ shown v := by
  intro v w s t hs ht same
  rw [List.append_assoc, List.append_assoc] at same
  exact legible v w s t hs ht (List.append_cancel_left same)

theorem labelled (legible : Legible shown) (s : Spec) (name : Text) :
    Legible fun v => s.labelled name (shown v) := by
  intro v w t u _ _ same
  exact legible.injective (Spec.labelled_append_inj (legible.apart v w) same)

theorem list (legible : Legible shown) (filled : ∀ v, shown v ≠ []) {s : Spec} {vs ws : List V}
    (same : s.enclose '[' ']' (vs.map shown) = s.enclose '[' ']' (ws.map shown)) : vs = ws := by
  have apart : ∀ pq ∈ (vs.map shown).zip (ws.map shown), Apart pq.1 pq.2 := by
    rw [List.zip_map]
    intro pq mem
    obtain ⟨⟨v, w⟩, -, rfl⟩ := List.mem_map.mp mem
    exact legible.apart v w
  have parts := Spec.enclose_inj rfl (by simpa using fun v _ => filled v)
    (by simpa using fun w _ => filled w) apart same
  exact List.map_injective_iff.mpr (fun _ _ => legible.injective) parts

theorem quoted : Legible Text.quoted := of_append fun _ _ _ _ => quoted_append_inj

theorem quotedChar : Legible Text.quotedChar := of_append fun _ _ _ _ => quotedChar_append_inj

end Legible

end Nominal
