import Nominal.Proofs.Text.Layout

/-! Texts that are joined and split again. Words joined by a character that is in none of them
are what the text splits into there. As long as no word is empty, the character stands between
two others wherever it stands, and nowhere at the ends. The lines of a text are what it splits
into at its line breaks, and a part that is laid out on lines of its own has each of its lines
moved to the right, an empty line like any other. -/

namespace Nominal.Text

def Unbroken (c : Char) (word : Text) : Prop := word ≠ [] ∧ c ∉ word

theorem join_eq_intercalate (separator : Text) (parts : List Text) :
    join separator parts = separator.intercalate parts := by
  fun_induction join separator parts with
  | case1 => rfl
  | case2 part => exact List.intercalate_singleton.symm
  | case3 part next rest ih => rw [ih, List.intercalate_cons_cons]

theorem join_append (separator : Text) {parts parts' : List Text} (nonempty : parts ≠ [])
    (nonempty' : parts' ≠ []) :
    join separator (parts ++ parts') = join separator parts ++ separator ++ join separator parts' := by
  obtain ⟨p, parts, rfl⟩ := List.exists_cons_of_ne_nil nonempty
  obtain ⟨p', parts', rfl⟩ := List.exists_cons_of_ne_nil nonempty'
  rw [List.cons_append, join_cons, join_cons, join_cons, List.flatMap_append, List.flatMap_cons]
  simp only [List.append_assoc]

variable {c : Char}

theorem splitOn_join {parts : List Text} (nonempty : parts ≠ []) (apart : ∀ p ∈ parts, c ∉ p) :
    (join [c] parts).splitOn c = parts := by
  rw [join_eq_intercalate]
  exact List.splitOn_intercalate c apart nonempty

theorem join_splitOn (t : Text) : join [c] (t.splitOn c) = t := by
  rw [join_eq_intercalate]
  exact List.intercalate_splitOn c

theorem count_join {parts : List Text} (apart : ∀ p ∈ parts, c ∉ p) :
    (join [c] parts).count c = parts.length - 1 := by
  cases parts with
  | nil => rfl
  | cons p parts =>
    rw [List.forall_mem_cons] at apart
    rw [join_cons, List.count_append, List.count_eq_zero_of_not_mem apart.1, Nat.zero_add,
      List.length_cons, Nat.add_sub_cancel]
    replace apart := apart.2
    induction parts with
    | nil => rfl
    | cons q parts ih =>
      rw [List.forall_mem_cons] at apart
      rw [List.flatMap_cons, List.count_append, ih apart.2, List.singleton_append,
        List.count_cons_self, List.count_eq_zero_of_not_mem apart.1, List.length_cons]
      omega

/-- A character that stands neither at an end nor next to itself. -/
structure Separates (c : Char) (t : Text) : Prop where
  leading : ¬ [c] <+: t
  trailing : ¬ [c] <:+ t
  doubled : ¬ [c, c] <:+: t

theorem separates_of_splitOn {t : Text} (filled : [] ∉ t.splitOn c) : Separates c t where
  leading := by
    rintro ⟨after, rfl⟩
    rw [← List.nil_append [c], List.append_assoc, List.singleton_append,
      List.splitOn_append_cons_self] at filled
    simp at filled
  trailing := by
    rintro ⟨before, rfl⟩
    rw [List.splitOn_append_cons_self] at filled
    simp at filled
  doubled := by
    rintro ⟨before, after, rfl⟩
    rw [List.append_assoc, List.cons_append, List.singleton_append,
      List.splitOn_append_cons_self, ← List.nil_append (c :: after),
      List.splitOn_append_cons_self] at filled
    simp at filled

theorem separates_join {words : List Text} (nonempty : words ≠ []) (all : ∀ w ∈ words, Unbroken c w) :
    Separates c (join [c] words) := by
  apply separates_of_splitOn
  rw [splitOn_join nonempty fun w mem => (all w mem).2]
  exact fun mem => (all [] mem).1 rfl

theorem join_ne_nil {words : List Text} (nonempty : words ≠ []) (all : ∀ w ∈ words, Unbroken c w) :
    join [c] words ≠ [] := by
  intro empty
  have split := splitOn_join nonempty fun w mem => (all w mem).2
  rw [empty] at split
  exact (all [] (by rw [← split]; exact List.mem_singleton.mpr rfl)).1 rfl

theorem join_inj {words words' : List Text} (all : ∀ w ∈ words, Unbroken c w)
    (all' : ∀ w ∈ words', Unbroken c w) (same : join [c] words = join [c] words') :
    words = words' := by
  by_cases empty : words = []
  · by_contra differ
    have nonempty' : words' ≠ [] := fun empty' => differ (empty.trans empty'.symm)
    rw [empty] at same
    exact join_ne_nil nonempty' all' same.symm
  · have nonempty' : words' ≠ [] := by
      rintro rfl
      exact join_ne_nil empty all same
    rw [← splitOn_join empty fun w mem => (all w mem).2, same,
      splitOn_join nonempty' fun w mem => (all' w mem).2]

theorem not_mem_of_mem_splitOn {t line : Text} (mem : line ∈ t.splitOn c) : c ∉ line := by
  induction t generalizing line with
  | nil => simp_all
  | cons d t ih =>
    rw [List.splitOn_cons_eq_if_modifyHead] at mem
    split at mem
    · rcases List.mem_cons.mp mem with rfl | later
      · exact List.not_mem_nil
      · exact ih later
    · rename_i other
      obtain ⟨first, rest, lines⟩ := List.exists_cons_of_ne_nil (List.splitOn_ne_nil c t)
      rw [lines, List.modifyHead_cons, List.mem_cons] at mem
      rcases mem with rfl | later
      · rw [List.mem_cons, not_or]
        exact ⟨fun same => other (by simp [same]), ih (by simp [lines])⟩
      · exact ih (by simp [lines, later])

def indented (t : Text) : Text := join ['\n'] ((t.splitOn '\n').map ("    ".toList ++ ·))

theorem indentFrom_line {line : Text} (inline : '\n' ∉ line) (rest : Text) :
    indentFrom true (line ++ '\n' :: rest) =
      "    ".toList ++ line ++ '\n' :: indentFrom true rest := by
  have start : indentFrom true (line ++ ['\n']) =
      "    ".toList ++ indentFrom false (line ++ ['\n']) := by
    cases line <;> rfl
  have ends : endsLine true (line ++ ['\n']) = true := by
    rw [endsLine_append]
    rfl
  calc indentFrom true (line ++ '\n' :: rest)
    _ = indentFrom true ((line ++ ['\n']) ++ rest) := by simp
    _ = "    ".toList ++ (line ++ ['\n']) ++ indentFrom true rest := by
      rw [indentFrom_append, ends, start, indentFrom_of_not_mem inline]
    _ = "    ".toList ++ line ++ '\n' :: indentFrom true rest := by simp

theorem ownLines_join {lines : List Text} (nonempty : lines ≠ [])
    (inline : ∀ line ∈ lines, '\n' ∉ line) :
    ownLines (join ['\n'] lines) =
      join ['\n'] (lines.map ("    ".toList ++ ·)) ++ [',', '\n'] := by
  obtain ⟨line, lines, rfl⟩ := List.exists_cons_of_ne_nil nonempty
  clear nonempty
  -- The first line is held apart: only lines after it start behind a line break.
  induction lines generalizing line with
  | nil =>
    rw [List.forall_mem_singleton] at inline
    simpa [join] using ownLines_of_not_mem inline
  | cons next lines ih =>
    rw [List.forall_mem_cons] at inline
    have later := ih next inline.2
    have split (first second tail : Text) (rest : List Text) :
        join ['\n'] (first :: second :: rest) ++ tail =
          first ++ '\n' :: (join ['\n'] (second :: rest) ++ tail) := by
      simp [join]
    rw [ownLines] at later ⊢
    rw [split, indentFrom_line inline.1, later]
    exact (split _ _ _ _).symm

theorem ownLines_eq (part : Text) : ownLines part = indented part ++ [',', '\n'] := by
  have laid := ownLines_join (List.splitOn_ne_nil '\n' part) fun _ => not_mem_of_mem_splitOn
  rwa [join_splitOn] at laid

end Nominal.Text
