import Nominal.Proofs.Text.Digits
import Nominal.Text.Quoted

/-! Quoted text can be read back. An escape is one of three kinds: a backslash with a mark,
a code between braces, or the character itself, and its first two characters tell which.
So no escape is the beginning of another one, none begins with the quote that closes the
text, and whatever follows a quoted text cannot be taken for a part of it. -/

namespace Nominal.Text

def unmark : Char → Char
  | '0' => '\x00'
  | 't' => '\t'
  | 'r' => '\r'
  | 'n' => '\n'
  | mark => mark

inductive Escapes (quote c : Char) : Text → Prop where
  | mark (m : Char) (stands : unmark m = c) (other : m ≠ 'u') (visible : m ≠ '\n') :
    Escapes quote c ['\\', m]
  | code : Escapes quote c (escapeCode c)
  | plain (backslash : c ≠ '\\') (inside : c ≠ quote) (visible : c ≠ '\n') : Escapes quote c [c]

variable {quote : Char}

theorem escapes (double : quote = '"' ∨ quote = '\'') (c : Char) :
    Escapes quote c (escape quote c) := by
  unfold escape
  split
  · exact .mark '0' (by simp [unmark, *]) (by decide) (by decide)
  split
  · exact .mark 't' (by simp [unmark, *]) (by decide) (by decide)
  split
  · exact .mark 'r' (by simp [unmark, *]) (by decide) (by decide)
  split
  · exact .mark 'n' (by simp [unmark, *]) (by decide) (by decide)
  rename_i visible
  split
  · rename_i marked
    rcases marked with rfl | rfl
    · exact .mark '\\' rfl (by decide) (by decide)
    · rcases double with rfl | rfl
      · exact .mark '"' rfl (by decide) (by decide)
      · exact .mark '\'' rfl (by decide) (by decide)
  rename_i unmarked
  split
  · exact .code
  · exact .plain (fun same => unmarked (.inl same)) (fun same => unmarked (.inr same)) visible

theorem escapeCode_append_inj {c d : Char} {s t : Text}
    (same : escapeCode c ++ s = escapeCode d ++ t) : c = d := by
  simp only [escapeCode, List.append_assoc, List.cons_append, List.nil_append, List.cons.injEq,
    true_and] at same
  have alphanum {n : Nat} : ∀ a ∈ Nat.toDigits 16 n, a.isAlphanum = true :=
    fun _ => isAlphanum_of_mem_toDigits (by decide) (by decide)
  obtain ⟨digits, -⟩ := append_inj_of_kind alphanum alphanum rfl rfl same
  exact Char.toNat_inj.mp (toDigits_inj (by decide) (by decide) digits)

theorem Escapes.unique {c d : Char} {x y s t : Text} (hc : Escapes quote c x)
    (hd : Escapes quote d y) (same : x ++ s = y ++ t) : c = d := by
  cases hc with
  | mark m stands other visible =>
    cases hd with
    | mark m' stands' other' visible' =>
      obtain ⟨rfl, -⟩ := List.cons.inj (List.cons.inj same).2
      exact stands.symm.trans stands'
    | code => exact absurd (List.cons.inj (List.cons.inj same).2).1 other
    | plain backslash inside visible' => exact absurd (List.cons.inj same).1.symm backslash
  | code =>
    cases hd with
    | mark m stands other visible =>
      exact absurd (List.cons.inj (List.cons.inj same).2).1.symm other
    | code => exact escapeCode_append_inj same
    | plain backslash inside visible => exact absurd (List.cons.inj same).1.symm backslash
  | plain backslash inside visible =>
    cases hd with
    | mark m stands other visible' => exact absurd (List.cons.inj same).1 backslash
    | code => exact absurd (List.cons.inj same).1 backslash
    | plain backslash' inside' visible' => exact (List.cons.inj same).1

theorem Escapes.ne_quote (double : quote = '"' ∨ quote = '\'') {c : Char} {x s t : Text}
    (hc : Escapes quote c x) : x ++ s ≠ quote :: t := by
  have other : '\\' ≠ quote := by rcases double with rfl | rfl <;> decide
  intro same
  cases hc with
  | mark m stands _ visible => exact other (List.cons.inj same).1
  | code => exact other (List.cons.inj same).1
  | plain backslash inside visible => exact inside (List.cons.inj same).1

theorem Escapes.newline_not_mem {c : Char} {x : Text} (hc : Escapes quote c x) : '\n' ∉ x := by
  cases hc with
  | mark m stands other visible => simp [Ne.symm visible]
  | code =>
    have digits : '\n' ∉ Nat.toDigits 16 c.toNat := fun mem =>
      absurd (isAlphanum_of_mem_toDigits (by decide) (by decide) mem) (by decide)
    simp [escapeCode, digits]
  | plain backslash inside visible => simp [Ne.symm visible]

theorem escape_append_inj (double : quote = '"' ∨ quote = '\'') {c d : Char} {s t : Text}
    (same : escape quote c ++ s = escape quote d ++ t) : c = d :=
  (escapes double c).unique (escapes double d) same

theorem flatMap_escape_inj (double : quote = '"' ∨ quote = '\'') {x y s t : Text}
    (same : x.flatMap (escape quote) ++ quote :: s = y.flatMap (escape quote) ++ quote :: t) :
    x = y := by
  induction x generalizing y with
  | nil =>
    cases y with
    | nil => rfl
    | cons d y =>
      rw [List.flatMap_cons, List.append_assoc] at same
      exact absurd same.symm ((escapes double d).ne_quote double)
  | cons c x ih =>
    cases y with
    | nil =>
      rw [List.flatMap_cons, List.append_assoc] at same
      exact absurd same ((escapes double c).ne_quote double)
    | cons d y =>
      rw [List.flatMap_cons, List.flatMap_cons, List.append_assoc, List.append_assoc] at same
      obtain rfl := escape_append_inj double same
      rw [ih (List.append_cancel_left same)]

theorem quoted_append_inj {x y s t : Text} (same : quoted x ++ s = quoted y ++ t) : x = y := by
  simp only [quoted, List.append_assoc, List.cons_append, List.nil_append, List.cons.injEq,
    true_and] at same
  exact flatMap_escape_inj (.inl rfl) same

theorem quotedChar_append_inj {c d : Char} {s t : Text}
    (same : quotedChar c ++ s = quotedChar d ++ t) : c = d := by
  simp only [quotedChar, List.append_assoc, List.cons_append, List.nil_append, List.cons.injEq,
    true_and] at same
  exact escape_append_inj (.inr rfl) same

theorem newline_not_mem_quoted (t : Text) : '\n' ∉ quoted t := by
  have escaped : ∀ c ∈ t, '\n' ∉ escape '"' c := fun c _ => (escapes (.inl rfl) c).newline_not_mem
  simpa [quoted] using escaped

end Nominal.Text
