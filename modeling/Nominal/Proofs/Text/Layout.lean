import Mathlib.Data.List.Basic
import Nominal.Text.Layout

/-! Layouts can be taken apart again. What follows a part is a comma, a space, a closing
bracket or nothing, so parts that can be told apart whatever of these follows can be told
apart inside brackets too, in both layouts, and so can lists of them of different lengths.
Indentation loses nothing, for it is added where a line holds a character and nowhere else. -/

namespace Nominal

namespace Text

def isClosing (c : Char) : Bool := c = ')' || c = ']' || c = '\x7d'

def isFollowing (c : Char) : Bool := c = ',' || c = ' ' || isClosing c

def follows : Text → Bool
  | [] => true
  | c :: _ => isFollowing c

def isWord (t : Text) : Bool := t.all fun c => !isFollowing c

/-- Whatever follows, two parts with one beginning are the same part. -/
def Apart (p q : Text) : Prop :=
  ∀ s t, follows s = true → follows t = true → p ++ s = q ++ t → p = q

theorem Apart.append_left {p q : Text} (apart : Apart p q) (front : Text) :
    Apart (front ++ p) (front ++ q) := by
  intro s t hs ht same
  rw [List.append_assoc, List.append_assoc] at same
  rw [apart s t hs ht (List.append_cancel_left same)]

theorem isFollowing_of_isClosing {c : Char} (closing : isClosing c = true) :
    isFollowing c = true := by
  simp [isFollowing, closing]

theorem ne_comma_of_isClosing {c : Char} (closing : isClosing c = true) : c ≠ ',' := by
  rintro rfl
  exact absurd closing (by decide)

theorem ne_space_of_isClosing {c : Char} (closing : isClosing c = true) : c ≠ ' ' := by
  rintro rfl
  exact absurd closing (by decide)

theorem join_cons (separator p : Text) (ps : List Text) :
    join separator (p :: ps) = p ++ ps.flatMap (separator ++ ·) := by
  induction ps generalizing p with
  | nil => exact (List.append_nil p).symm
  | cons q ps ih => rw [join, ih q, List.flatMap_cons, List.append_assoc, List.append_assoc]

theorem join_append_inj {ps qs : List Text} (someP : ps ≠ []) (someQ : qs ≠ [])
    (apart : ∀ pq ∈ ps.zip qs, Apart pq.1 pq.2) {c : Char} (following : isFollowing c = true)
    (last : c ≠ ',') {s t : Text}
    (same : join [',', ' '] ps ++ c :: s = join [',', ' '] qs ++ c :: t) : ps = qs := by
  obtain ⟨p, ps, rfl⟩ := List.exists_cons_of_ne_nil someP
  obtain ⟨q, qs, rfl⟩ := List.exists_cons_of_ne_nil someQ
  rw [join_cons, join_cons, List.append_assoc, List.append_assoc] at same
  clear someP someQ
  -- A further part is announced by a comma, and what follows the last one is none.
  have ahead (rs : List Text) (u : Text) :
      follows (rs.flatMap ([',', ' '] ++ ·) ++ c :: u) = true := by
    cases rs with
    | nil => exact following
    | cons r rs => rfl
  induction ps generalizing p q qs with
  | nil =>
    rw [List.zip_cons_cons, List.forall_mem_cons] at apart
    obtain rfl : p = q := apart.1 _ _ (ahead [] s) (ahead qs t) same
    cases qs with
    | nil => rfl
    | cons q qs => exact absurd (List.cons.inj (List.append_cancel_left same)).1 last
  | cons p' ps ih =>
    rw [List.zip_cons_cons, List.forall_mem_cons] at apart
    obtain rfl : p = q := apart.1 _ _ (ahead (p' :: ps) s) (ahead qs t) same
    have rest := List.append_cancel_left same
    cases qs with
    | nil => exact absurd (List.cons.inj rest).1.symm last
    | cons q' qs =>
      simp only [List.flatMap_cons, List.append_assoc] at rest
      rw [ih p' q' qs apart.2 (List.append_cancel_left rest)]

theorem flatMap_closed_inj {ps qs : List Text} (apart : ∀ pq ∈ ps.zip qs, Apart pq.1 pq.2)
    (same : ps.flatMap (· ++ [',', '\n']) = qs.flatMap (· ++ [',', '\n'])) : ps = qs := by
  induction ps generalizing qs with
  | nil =>
    cases qs with
    | nil => rfl
    | cons q qs => simp at same
  | cons p ps ih =>
    cases qs with
    | nil => simp at same
    | cons q qs =>
      rw [List.zip_cons_cons, List.forall_mem_cons] at apart
      simp only [List.flatMap_cons, List.append_assoc] at same
      obtain rfl : p = q := apart.1 _ _ rfl rfl same
      rw [ih apart.2 (List.append_cancel_left (List.append_cancel_left same))]

theorem splitOn_lines {lines : List Text} (inline : ∀ line ∈ lines, '\n' ∉ line) {last : Text}
    (tail : '\n' ∉ last) :
    (lines.flatMap (· ++ ['\n']) ++ last).splitOn '\n' = lines ++ [last] := by
  induction lines with
  | nil => exact List.splitOn_eq_singleton tail
  | cons line lines ih =>
    rw [List.forall_mem_cons] at inline
    simp only [List.flatMap_cons, List.append_assoc, List.cons_append, List.nil_append]
    rw [List.splitOn_append_cons_self_of_not_mem inline.1, ih inline.2]

/-- Whether the next character starts a line, after a text that stands where the flag says. -/
def endsLine : Bool → Text → Bool
  | start, [] => start
  | _, c :: rest => endsLine (c = '\n') rest

theorem endsLine_append (start : Bool) (x y : Text) :
    endsLine start (x ++ y) = endsLine (endsLine start x) y := by
  induction x generalizing start with
  | nil => rfl
  | cons c x ih => exact ih (c = '\n')

theorem endsLine_closed (start : Bool) (part : Text) :
    endsLine start (part ++ [',', '\n']) = true := by
  rw [endsLine_append]
  rfl

theorem endsLine_flatMap (parts : List Text) :
    endsLine true (parts.flatMap (· ++ [',', '\n'])) = true := by
  induction parts with
  | nil => rfl
  | cons part parts ih => rw [List.flatMap_cons, endsLine_append, endsLine_closed, ih]

end Text

open Text

theorem indentFrom_append (start : Bool) (x y : Text) :
    indentFrom start (x ++ y) = indentFrom start x ++ indentFrom (endsLine start x) y := by
  induction x generalizing start with
  | nil => rfl
  | cons c x ih =>
    cases start <;> simp [indentFrom, endsLine, ih]

theorem flatMap_ownLines (parts : List Text) :
    parts.flatMap ownLines = indentFrom true (parts.flatMap (· ++ [',', '\n'])) := by
  induction parts with
  | nil => rfl
  | cons part parts ih =>
    rw [List.flatMap_cons, List.flatMap_cons, indentFrom_append, endsLine_closed, ih, ownLines]

theorem indentFrom_append_inj {start : Bool} {x y s t : Text} {c d : Char}
    (hx : endsLine start x = true) (hy : endsLine start y = true) (hc : c ≠ ' ') (hd : d ≠ ' ')
    (same : indentFrom start x ++ c :: s = indentFrom start y ++ d :: t) : x = y := by
  induction x generalizing start y with
  | nil =>
    obtain rfl : start = true := hx
    cases y with
    | nil => rfl
    | cons e y => exact absurd (List.cons.inj same).1 hc
  | cons a x ih =>
    cases y with
    | nil =>
      obtain rfl : start = true := hy
      exact absurd (List.cons.inj same).1.symm hd
    | cons e y =>
      have both : a = e ∧ indentFrom (a = '\n') x ++ c :: s = indentFrom (e = '\n') y ++ d :: t := by
        cases start <;> simpa [indentFrom] using same
      obtain ⟨rfl, rest⟩ := both
      rw [ih hx hy rest]

theorem indentFrom_of_not_mem {x : Text} (inline : '\n' ∉ x) :
    indentFrom false (x ++ ['\n']) = x ++ ['\n'] := by
  induction x with
  | nil => rfl
  | cons c x ih =>
    have next : decide (c = '\n') = false := decide_eq_false fun same => inline (same ▸ .head x)
    rw [List.cons_append, indentFrom, next, ih fun mem => inline (.tail c mem)]

theorem ownLines_of_not_mem {part : Text} (inline : '\n' ∉ part) :
    ownLines part = "    ".toList ++ part ++ [','] ++ ['\n'] := by
  have closed : '\n' ∉ part ++ [','] := by simpa using inline
  have same : indentFrom true (part ++ [','] ++ ['\n']) =
      "    ".toList ++ indentFrom false (part ++ [','] ++ ['\n']) := by
    cases part <;> rfl
  rw [indentFrom_of_not_mem closed] at same
  simpa [ownLines] using same

namespace Spec

variable {s : Spec}

theorem enclose_append_inj {opening closing : Char} (closes : isClosing closing = true)
    {ps qs : List Text} (someP : ps ≠ []) (someQ : qs ≠ [])
    (apart : ∀ pq ∈ ps.zip qs, Apart pq.1 pq.2) {u v : Text}
    (same : s.enclose opening closing ps ++ u = s.enclose opening closing qs ++ v) : ps = qs := by
  have emptyP : ps.isEmpty = false := by simpa using someP
  have emptyQ : qs.isEmpty = false := by simpa using someQ
  rw [enclose, enclose, emptyP, emptyQ] at same
  cases layout : s.alternate with
  | true =>
    simp only [layout, Bool.false_eq_true, if_true, if_false, List.cons_append, List.append_assoc,
      List.nil_append, List.cons.injEq, true_and, flatMap_ownLines] at same
    have space := ne_space_of_isClosing closes
    exact flatMap_closed_inj apart
      (indentFrom_append_inj (endsLine_flatMap ps) (endsLine_flatMap qs) space space same)
  | false =>
    simp only [layout, Bool.false_eq_true, if_false, List.cons_append, List.append_assoc,
      List.nil_append, List.cons.injEq, true_and] at same
    exact join_append_inj someP someQ apart (isFollowing_of_isClosing closes)
      (ne_comma_of_isClosing closes) same

theorem two_lt_length_enclose {opening closing : Char} {parts : List Text} (nonempty : parts ≠ [])
    (filled : ∀ p ∈ parts, p ≠ []) : 2 < (s.enclose opening closing parts).length := by
  obtain ⟨p, parts, rfl⟩ := List.exists_cons_of_ne_nil nonempty
  have long : 0 < p.length := List.length_pos_iff.mpr (filled p List.mem_cons_self)
  cases layout : s.alternate with
  | true =>
    simp only [enclose, layout, List.isEmpty_cons, Bool.false_eq_true, if_false, if_true,
      List.cons_append, List.length_cons, List.length_append, List.length_nil]
    omega
  | false =>
    simp only [enclose, layout, List.isEmpty_cons, Bool.false_eq_true, if_false, join_cons,
      List.cons_append, List.length_cons, List.length_append, List.length_nil]
    omega

theorem enclose_inj {opening closing : Char} (closes : isClosing closing = true)
    {ps qs : List Text} (filledP : ∀ p ∈ ps, p ≠ []) (filledQ : ∀ q ∈ qs, q ≠ [])
    (apart : ∀ pq ∈ ps.zip qs, Apart pq.1 pq.2)
    (same : s.enclose opening closing ps = s.enclose opening closing qs) : ps = qs := by
  have short : (s.enclose opening closing []).length = 2 := rfl
  by_cases someP : ps = []
  · by_contra differ
    have someQ : qs ≠ [] := fun none => differ (someP.trans none.symm)
    have long : 2 < (s.enclose opening closing qs).length := two_lt_length_enclose someQ filledQ
    rw [← same, someP, short] at long
    exact absurd long (Nat.lt_irrefl 2)
  · by_cases someQ : qs = []
    · have long : 2 < (s.enclose opening closing ps).length := two_lt_length_enclose someP filledP
      rw [same, someQ, short] at long
      exact absurd long (Nat.lt_irrefl 2)
    · have closed : s.enclose opening closing ps ++ [] = s.enclose opening closing qs ++ [] := by
        rw [same]
      exact enclose_append_inj closes someP someQ apart closed

theorem labelled_append_inj {name p q u v : Text} (apart : Apart p q)
    (same : s.labelled name p ++ u = s.labelled name q ++ v) : p = q := by
  unfold labelled at same
  split at same
  · simp only [List.cons_append, List.append_assoc, List.nil_append, List.cons.injEq,
      true_and] at same
    exact apart _ _ rfl rfl same
  · simp only [List.append_assoc] at same
    have parts := enclose_append_inj rfl (by simp) (by simp) (by simpa using apart)
      (List.append_cancel_left same)
    exact List.head_eq_of_cons_eq parts

theorem labelled_ne_nil (s : Spec) (name part : Text) : s.labelled name part ≠ [] := by
  unfold labelled
  split
  · exact List.cons_ne_nil _ _
  · unfold enclose
    cases s.alternate <;> simp

def fieldText (field : Text × Text) : Text := field.1 ++ [':', ' '] ++ field.2

theorem record_eq (s : Spec) (name : Text) (fields : List (Text × Text)) :
    s.record name fields =
      if s.alternate then name ++ ' ' :: s.enclose '\x7b' '\x7d' (fields.map fieldText)
      else name ++ [' ', '\x7b', ' '] ++ join [',', ' '] (fields.map fieldText) ++ [' ', '\x7d'] :=
  rfl

theorem prefix_record (s : Spec) (name : Text) (fields : List (Text × Text)) :
    name <+: s.record name fields := by
  rw [record_eq]
  split
  · exact List.prefix_append _ _
  · simp only [List.append_assoc]
    exact List.prefix_append _ _

theorem eq_of_map_fieldText {fs gs : List (Text × Text)}
    (labels : ∀ fg ∈ fs.zip gs, fg.1.1 = fg.2.1) (same : fs.map fieldText = gs.map fieldText) :
    fs = gs := by
  induction fs generalizing gs with
  | nil => exact (List.map_eq_nil_iff.mp same.symm).symm
  | cons f fs ih =>
    cases gs with
    | nil => cases same
    | cons g gs =>
      rw [List.zip_cons_cons, List.forall_mem_cons] at labels
      rw [List.map_cons, List.map_cons, List.cons.injEq] at same
      have label : f.1 = g.1 := labels.1
      have value : f.2 = g.2 := by simpa [fieldText, label] using same.1
      rw [Prod.ext label value, ih labels.2 same.2]

theorem record_append_inj {name : Text} {fs gs : List (Text × Text)} (someF : fs ≠ [])
    (someG : gs ≠ []) (labels : ∀ fg ∈ fs.zip gs, fg.1.1 = fg.2.1)
    (apart : ∀ fg ∈ fs.zip gs, Apart fg.1.2 fg.2.2) {u v : Text}
    (same : s.record name fs ++ u = s.record name gs ++ v) : fs = gs := by
  have partsF : fs.map fieldText ≠ [] := by simpa using someF
  have partsG : gs.map fieldText ≠ [] := by simpa using someG
  have partsApart : ∀ pq ∈ (fs.map fieldText).zip (gs.map fieldText), Apart pq.1 pq.2 := by
    rw [List.zip_map]
    intro pq mem
    obtain ⟨fg, both, rfl⟩ := List.mem_map.mp mem
    rw [Prod.map_fst, Prod.map_snd, fieldText, fieldText, labels fg both]
    exact (apart fg both).append_left _
  rw [record_eq, record_eq] at same
  cases layout : s.alternate with
  | true =>
    rw [layout, if_pos rfl, if_pos rfl, List.append_assoc, List.append_assoc] at same
    have enclosed := (List.cons.inj (List.append_cancel_left same)).2
    exact eq_of_map_fieldText labels (enclose_append_inj rfl partsF partsG partsApart enclosed)
  | false =>
    simp only [layout, Bool.false_eq_true, if_false, List.append_assoc] at same
    have joined := List.append_cancel_left (List.append_cancel_left same)
    exact eq_of_map_fieldText labels
      (join_append_inj partsF partsG partsApart rfl (by decide) joined)

theorem newline_not_mem_record (layout : s.alternate = false) {name : Text} (title : '\n' ∉ name)
    {fields : List (Text × Text)} (inline : ∀ f ∈ fields, '\n' ∉ fieldText f) :
    '\n' ∉ s.record name fields := by
  rw [record_eq, layout]
  cases fields with
  | nil => simpa [join] using title
  | cons f fields =>
    rw [List.forall_mem_cons] at inline
    rw [List.map_cons, join_cons, List.flatMap_map]
    simpa [title, inline.1] using fun a b mem => inline.2 (a, b) mem

theorem splitOn_record (layout : s.alternate = true) {name : Text} (title : '\n' ∉ name)
    {fields : List (Text × Text)} (nonempty : fields ≠ [])
    (inline : ∀ f ∈ fields, '\n' ∉ fieldText f) :
    (s.record name fields).splitOn '\n' =
      (name ++ [' ', '\x7b']) ::
        fields.map (fun f => "    ".toList ++ fieldText f ++ [',']) ++ [['\x7d']] := by
  have filled : (fields.map fieldText).isEmpty = false := by simpa using nonempty
  have lines : (fields.map fieldText).flatMap ownLines =
      (fields.map fun f => "    ".toList ++ fieldText f ++ [',']).flatMap (· ++ ['\n']) := by
    rw [List.flatMap_map, List.flatMap_map]
    exact List.flatMap_congr fun f mem => ownLines_of_not_mem (inline f mem)
  have laid : s.record name fields =
      ((name ++ [' ', '\x7b']) ::
        fields.map fun f => "    ".toList ++ fieldText f ++ [',']).flatMap (· ++ ['\n']) ++
          ['\x7d'] := by
    rw [record_eq, layout, if_pos rfl, enclose, filled, layout, lines]
    simp
  rw [laid]
  -- No line has a break within it, neither the title nor any of the fields.
  apply splitOn_lines
  · rw [List.forall_mem_cons]
    refine ⟨by simpa using title, ?_⟩
    intro line mem
    obtain ⟨f, there, rfl⟩ := List.mem_map.mp mem
    simpa using inline f there
  · decide

end Spec

end Nominal
