import Nominal.Catalogue
import Nominal.Proofs.Integer.Steps

/-! The texts that are read as integers. A numeral is a sign that the format has and at
least one decimal digit, with a value in range. Every other text has one flaw, which is
met by going from left to right after the sign: a character that is no digit, or the
digit that takes the value read so far out of range. Both are defined here without the
reader, and the reader is shown to accept the numerals and to find the flaws. -/

namespace Nominal

/-- The value of decimal digits, below zero after a minus sign. -/
def signedValue (negative : Bool) (digits : Text) : Int :=
  if negative then -(Nat.ofDigitChars 10 digits 0 : Int) else Nat.ofDigitChars 10 digits 0

namespace IntFormat

def signs (f : IntFormat) : List Text := if f.signed then [[], ['+'], ['-']] else [[], ['+']]

/-- Whether a text starts with an accepted minus, and what follows the accepted sign. -/
def afterSign (f : IntFormat) : Text → Bool × Text
  | '+' :: rest => (false, rest)
  | '-' :: rest => if f.signed then (true, rest) else (false, '-' :: rest)
  | s => (false, s)

/-- Digits whose every prefix has a value in range. -/
def Readable (f : IntFormat) (negative : Bool) (digits : Text) : Prop :=
  (∀ c ∈ digits, c.isDigit = true) ∧ ∀ p, p <+: digits → f.InRange (signedValue negative p)

/-- The texts of the integers of a format. Leading zeros do no harm. -/
def Numeral (f : IntFormat) (s : Text) (n : Int) : Prop :=
  ∃ sign ∈ f.signs, ∃ digits, s = sign ++ digits ∧ digits ≠ [] ∧
    (∀ c ∈ digits, c.isDigit = true) ∧ n = signedValue (sign = ['-']) digits ∧ f.InRange n

/-- The texts of no integer, with the flaw that is met first. -/
inductive Flawed (f : IntFormat) : Text → IntegerFlaw → Prop
  | empty : Flawed f [] .empty
  | loneSign {s : Text} {negative : Bool} (nonempty : s ≠ [])
      (split : f.afterSign s = (negative, [])) : Flawed f s .invalidDigit
  | character {s : Text} {negative : Bool} (digits : Text) (c : Char) (rest : Text)
      (split : f.afterSign s = (negative, digits ++ c :: rest))
      (readable : f.Readable negative digits) (strange : c.isDigit = false) :
      Flawed f s .invalidDigit
  | excess {s : Text} {negative : Bool} (digits : Text) (d : Char) (rest : Text)
      (split : f.afterSign s = (negative, digits ++ d :: rest))
      (readable : f.Readable negative digits) (digit : d.isDigit = true)
      (leaves : ¬ f.InRange (signedValue negative (digits ++ [d]))) :
      Flawed f s (if negative then .tooSmall else .tooLarge)

variable {f : IntFormat} {negative : Bool} {digits : Text}

theorem inRange_zero (f : IntFormat) : f.InRange 0 := f.inRange_of_small (by decide) (by decide)

theorem readable_nil (f : IntFormat) (negative : Bool) : f.Readable negative [] := by
  refine ⟨fun c hc => absurd hc List.not_mem_nil, fun p hp => ?_⟩
  rw [List.prefix_nil.mp hp]
  cases negative <;> exact f.inRange_zero

theorem Readable.snoc (readable : f.Readable negative digits) {d : Char} (digit : d.isDigit = true)
    (stays : f.InRange (signedValue negative (digits ++ [d]))) :
    f.Readable negative (digits ++ [d]) := by
  obtain ⟨all, inRange⟩ := readable
  refine ⟨fun c hc => ?_, fun p hp => ?_⟩
  · rcases List.mem_append.mp hc with old | new
    · exact all c old
    · rw [List.mem_singleton.mp new]
      exact digit
  · rcases List.prefix_concat_iff.mp hp with rfl | shorter
    · exact stays
    · exact inRange p shorter

theorem Readable.inRange (readable : f.Readable negative digits) :
    f.InRange (signedValue negative digits) :=
  readable.2 digits (List.prefix_refl digits)

theorem Readable.left {more : Text} (readable : f.Readable negative (digits ++ more)) :
    f.Readable negative digits :=
  ⟨fun c hc => readable.1 c (List.mem_append_left more hc),
    fun p hp => readable.2 p (hp.trans (List.prefix_append digits more))⟩

theorem ofDigitChars_le (more : Text) (n : Nat) : n ≤ Nat.ofDigitChars 10 more n := by
  induction more generalizing n with
  | nil => simp
  | cons c rest ih =>
    rw [Nat.ofDigitChars_cons]
    exact Nat.le_trans (by omega) (ih _)

theorem readable_of_inRange (all : ∀ c ∈ digits, c.isDigit = true)
    (inRange : f.InRange (signedValue negative digits)) : f.Readable negative digits := by
  refine ⟨all, fun p hp => ?_⟩
  obtain ⟨more, rfl⟩ := hp
  have grows := ofDigitChars_le more (Nat.ofDigitChars 10 p 0)
  rw [← Nat.ofDigitChars_append] at grows
  have least := f.min_nonpos
  have greatest := f.max_ge
  obtain ⟨low, high⟩ := inRange
  unfold InRange
  cases negative <;> simp only [signedValue, if_true, Bool.false_eq_true, if_false] at low high ⊢ <;>
    omega

/-- Reading on from digits that are readable, either all of the text is readable or
there is a first place where it stops to be. -/
theorem readable_or_stops (f : IntFormat) (negative : Bool) {seen : Text}
    (readable : f.Readable negative seen) (t : Text) :
    f.Readable negative (seen ++ t) ∨
      (∃ digits c rest, seen ++ t = digits ++ c :: rest ∧ f.Readable negative digits ∧
        c.isDigit = false) ∨
      ∃ digits d rest, seen ++ t = digits ++ d :: rest ∧ f.Readable negative digits ∧
        d.isDigit = true ∧ ¬ f.InRange (signedValue negative (digits ++ [d])) := by
  -- Each digit that keeps the value in range moves from the text to the digits seen.
  induction t generalizing seen with
  | nil =>
    rw [List.append_nil]
    exact .inl readable
  | cons c rest ih =>
    cases digit : c.isDigit with
    | false => exact .inr (.inl ⟨seen, c, rest, rfl, readable, digit⟩)
    | true =>
      by_cases stays : f.InRange (signedValue negative (seen ++ [c]))
      · have next := ih (readable.snoc digit stays)
        rwa [List.append_assoc] at next
      · exact .inr (.inr ⟨seen, c, rest, rfl, readable, digit, stays⟩)

theorem afterSign_of_ne {c : Char} (notPlus : c ≠ '+') (notMinus : c ≠ '-') (rest : Text) :
    f.afterSign (c :: rest) = (false, c :: rest) := by
  unfold afterSign
  split
  · rename_i same
    cases same
    exact absurd rfl notPlus
  · rename_i same
    cases same
    exact absurd rfl notMinus
  · rfl

theorem afterSign_of_digit {c : Char} (digit : c.isDigit = true) (rest : Text) :
    f.afterSign (c :: rest) = (false, c :: rest) := by
  refine afterSign_of_ne ?_ ?_ rest
  · rintro rfl
    cases digit
  · rintro rfl
    cases digit

theorem afterSign_append {sign : Text} (mem : sign ∈ f.signs) (nonempty : digits ≠ [])
    (all : ∀ c ∈ digits, c.isDigit = true) :
    f.afterSign (sign ++ digits) = (decide (sign = ['-']), digits) := by
  obtain ⟨c, rest, rfl⟩ := List.exists_cons_of_ne_nil nonempty
  have digit := all c List.mem_cons_self
  cases signed : f.signed with
  | false =>
    simp only [signs, signed, Bool.false_eq_true, if_false, List.mem_cons, List.not_mem_nil,
      or_false] at mem
    rcases mem with rfl | rfl
    · exact afterSign_of_digit digit rest
    · rfl
  | true =>
    simp only [signs, signed, if_true, List.mem_cons, List.not_mem_nil, or_false] at mem
    rcases mem with rfl | rfl | rfl
    · exact afterSign_of_digit digit rest
    · rfl
    · exact if_pos signed

theorem exists_sign (f : IntFormat) (s : Text) :
    ∃ sign ∈ f.signs, s = sign ++ (f.afterSign s).2 ∧
      (f.afterSign s).1 = decide (sign = ['-']) := by
  unfold afterSign
  split
  · exact ⟨['+'], by cases signed : f.signed <;> simp [signs, signed], rfl, rfl⟩
  · cases signed : f.signed with
    | true => exact ⟨['-'], by simp [signs, signed], rfl, rfl⟩
    | false => exact ⟨[], by simp [signs, signed], rfl, rfl⟩
  · exact ⟨[], by cases signed : f.signed <;> simp [signs, signed], rfl, rfl⟩

theorem Flawed.eq_nil {s : Text} {flaw : IntegerFlaw} (flawed : f.Flawed s flaw)
    (empty : flaw = .empty) : s = [] := by
  cases flawed with
  | empty => rfl
  | loneSign nonempty split => cases empty
  | character digits c rest split readable strange => cases empty
  -- The flaw of an excess depends on the sign, and is not this one in either case.
  | @excess _ negative digits d rest split readable digit leaves =>
    cases negative <;> cases empty

theorem numeral_or_flawed (f : IntFormat) (s : Text) :
    (∃ n, f.Numeral s n) ∨ ∃ flaw, f.Flawed s flaw := by
  obtain ⟨sign, mem, whole, minus⟩ := f.exists_sign s
  by_cases nothing : s = []
  · subst nothing
    exact .inr ⟨_, .empty⟩
  · by_cases lone : (f.afterSign s).2 = []
    · exact .inr ⟨_, .loneSign nothing (Prod.ext rfl lone)⟩
    · rcases readable_or_stops f (f.afterSign s).1 (f.readable_nil _) (f.afterSign s).2 with
        readable | ⟨digits, c, rest, split, readable, strange⟩ |
          ⟨digits, d, rest, split, readable, digit, leaves⟩
      · rw [List.nil_append] at readable
        refine .inl ⟨_, sign, mem, _, whole, lone, readable.1, rfl, ?_⟩
        rw [← minus]
        exact readable.inRange
      · exact .inr ⟨_, .character digits c rest (Prod.ext rfl split) readable strange⟩
      · exact .inr ⟨_, .excess digits d rest (Prod.ext rfl split) readable digit leaves⟩

end IntFormat

namespace FixedInt

variable {f : IntFormat} {negative : Bool}

theorem digit?_of_isDigit {c : Char} (digit : c.isDigit = true) :
    digit? c = some (c.toNat - '0'.toNat) := if_pos digit

theorem extend_signedValue (negative : Bool) (digits : Text) (c : Char) :
    extend negative (signedValue negative digits) (c.toNat - '0'.toNat) =
      signedValue negative (digits ++ [c]) := by
  unfold extend signedValue
  rw [Nat.ofDigitChars_append, Nat.ofDigitChars_cons, Nat.ofDigitChars_nil]
  cases negative with
  | false =>
    simp only [Bool.false_eq_true, if_false]
    omega
  | true =>
    simp only [if_true]
    omega

/-- The reader gets through readable digits with their value. The digits seen so far
are those that the value in its hands stands for. -/
theorem readDigits_through {seen digits : Text} (readable : f.Readable negative (seen ++ digits))
    {v : FixedInt f} (reached : v.toInt = signedValue negative seen) (t : Text) :
    ∃ u : FixedInt f, u.toInt = signedValue negative (seen ++ digits) ∧
      readDigits negative v (digits ++ t) = readDigits negative u t := by
  -- The digits seen so far vary along with the value in the reader's hands.
  induction digits generalizing seen v with
  | nil =>
    rw [List.append_nil]
    exact ⟨v, reached, rfl⟩
  | cons c rest ih =>
    have split : seen ++ c :: rest = (seen ++ [c]) ++ rest := by simp
    rw [split] at readable ⊢
    have digit := readable.1 c (by simp)
    have next : f.InRange (signedValue negative (seen ++ [c])) := readable.left.inRange
    obtain ⟨w, taken, reads⟩ : ∃ w : FixedInt f, w.toInt = signedValue negative (seen ++ [c]) ∧
        ofInt? f (extend negative v.toInt (c.toNat - '0'.toNat)) = some w := by
      refine ⟨⟨_, next.1, next.2⟩, rfl, ?_⟩
      rw [reached, extend_signedValue]
      exact ofInt?_eq_some_iff.mpr rfl
    obtain ⟨u, value, later⟩ := ih readable taken
    refine ⟨u, value, ?_⟩
    simp only [List.cons_append, readDigits, digit?_of_isDigit digit, reads]
    exact later

theorem readMagnitude_of_ne_nil {t : Text} (nonempty : t ≠ []) :
    readMagnitude f negative t = readDigits negative (zero f) t := by
  cases t with
  | nil => exact absurd rfl nonempty
  | cons c rest => rfl

theorem readMagnitude_through {digits t : Text} (readable : f.Readable negative digits)
    (nonempty : digits ++ t ≠ []) :
    ∃ u : FixedInt f, u.toInt = signedValue negative digits ∧
      readMagnitude f negative (digits ++ t) = readDigits negative u t := by
  rw [readMagnitude_of_ne_nil nonempty]
  have start : (zero f).toInt = signedValue negative [] := by cases negative <;> rfl
  exact readDigits_through (readable : f.Readable negative ([] ++ digits)) start t

theorem read_of_ne_nil {s : Text} (nonempty : s ≠ []) :
    read f s = readMagnitude f (f.afterSign s).1 (f.afterSign s).2 := by
  obtain ⟨c, rest, rfl⟩ := List.exists_cons_of_ne_nil nonempty
  by_cases plus : c = '+'
  · subst plus
    rfl
  · by_cases minus : c = '-'
    · subst minus
      cases signed : f.signed <;> simp [read, IntFormat.afterSign, signed]
    · rw [IntFormat.afterSign_of_ne plus minus]
      simp [read, plus, minus]

theorem read_of_numeral {s : Text} {n : Int} (numeral : f.Numeral s n) :
    ∃ x, read f s = .ok x ∧ x.toInt = n := by
  obtain ⟨sign, mem, digits, rfl, nonempty, all, rfl, inRange⟩ := numeral
  have split := IntFormat.afterSign_append mem nonempty all
  have readable := IntFormat.readable_of_inRange all inRange
  obtain ⟨u, value, through⟩ := readMagnitude_through (t := []) readable
    (by simpa using nonempty)
  rw [List.append_nil] at through
  refine ⟨u, ?_, value⟩
  rw [read_of_ne_nil (by simp [nonempty]), split, through]
  rfl

theorem read_of_flawed {s : Text} {flaw : IntegerFlaw} (flawed : f.Flawed s flaw) :
    read f s = .error flaw := by
  cases flawed with
  | empty => rfl
  | loneSign nonempty split =>
    rw [read_of_ne_nil nonempty, split]
    rfl
  | character digits c rest split readable strange =>
    have nonempty : s ≠ [] := by
      rintro rfl
      simp [IntFormat.afterSign] at split
    obtain ⟨u, -, through⟩ := readMagnitude_through (t := c :: rest) readable (by simp)
    rw [read_of_ne_nil nonempty, split, through]
    simp [readDigits, digit?, strange]
  | excess digits d rest split readable digit leaves =>
    have nonempty : s ≠ [] := by
      rintro rfl
      simp [IntFormat.afterSign] at split
    obtain ⟨u, value, through⟩ := readMagnitude_through (t := d :: rest) readable (by simp)
    have refused := ofInt?_eq_none_iff.mpr leaves
    rw [← extend_signedValue, ← value] at refused
    rw [read_of_ne_nil nonempty, split, through]
    simp only [readDigits, digit?_of_isDigit digit, refused]

theorem read_eq_ok_iff {s : Text} {x : FixedInt f} :
    read f s = .ok x ↔ f.Numeral s x.toInt := by
  constructor
  · intro accepted
    rcases f.numeral_or_flawed s with ⟨n, numeral⟩ | ⟨flaw, flawed⟩
    · obtain ⟨y, found, rfl⟩ := read_of_numeral numeral
      cases accepted.symm.trans found
      exact numeral
    · cases accepted.symm.trans (read_of_flawed flawed)
  · intro numeral
    obtain ⟨y, found, same⟩ := read_of_numeral numeral
    rw [found, ext same]

theorem read_eq_error_iff {s : Text} {flaw : IntegerFlaw} :
    read f s = .error flaw ↔ f.Flawed s flaw := by
  constructor
  · intro refused
    rcases f.numeral_or_flawed s with ⟨n, numeral⟩ | ⟨found, flawed⟩
    · obtain ⟨y, found, -⟩ := read_of_numeral numeral
      cases refused.symm.trans found
    · cases refused.symm.trans (read_of_flawed flawed)
      exact flawed
  · exact read_of_flawed

end FixedInt

namespace Wrapped

/-- A wrapper takes the value of every numeral and refuses every other text, with its
own name, the whole text and the flaw that is met first. -/
theorem parse_eq_iff (f : IntFormat) (tag : Tag) (name : Text) (named : tag.name? = some name)
    (w : Wrapped tag (FixedInt f)) (s : Text) :
    (∀ x, perform (Interface.integer f) w (.parse s) = answer .accepted ⟨x⟩ ↔
        f.Numeral s x.toInt) ∧
      (∀ flaw, perform (Interface.integer f) w (.parse s) =
          answer (.rejected (.named name s (.integer flaw))) w ↔ f.Flawed s flaw) ∧
      (f.Flawed s .empty ↔ s = []) ∧
      ((∃ x, perform (Interface.integer f) w (.parse s) = answer .accepted ⟨x⟩) ∨
        ∃ flaw, perform (Interface.integer f) w (.parse s) =
          answer (.rejected (.named name s (.integer flaw))) w) := by
  rw [perform_parse named]
  refine ⟨fun x => ?_, fun flaw => ?_, ⟨fun flawed => flawed.eq_nil rfl, ?_⟩, ?_⟩
  · rw [← FixedInt.read_eq_ok_iff]
    cases FixedInt.read f s <;> simp [answer]
  · rw [← FixedInt.read_eq_error_iff]
    cases FixedInt.read f s <;> simp [answer]
  · rintro rfl
    exact .empty
  · cases FixedInt.read f s with
    | ok x => exact .inl ⟨x, rfl⟩
    | error flaw => exact .inr ⟨flaw, rfl⟩

/-- An overflow that comes before a strange character decides. -/
theorem parse_eq_excess :
    Catalogue.meterTag.name? = some "Meter".toList ∧
      perform (Interface.integer .int8) (⟨.zero .int8⟩ : Wrapped Catalogue.meterTag _)
          (.parse "-0129x".toList) =
        answer (.rejected (.named "Meter".toList "-0129x".toList (.integer .tooSmall)))
          ⟨.zero .int8⟩ := by
  have readable : IntFormat.int8.Readable true ['0', '1', '2'] :=
    IntFormat.readable_of_inRange (by simp) (by decide)
  have flawed : IntFormat.int8.Flawed "-0129x".toList .tooSmall :=
    .excess ['0', '1', '2'] '9' ['x'] rfl readable rfl (by decide)
  exact ⟨rfl, ((parse_eq_iff .int8 Catalogue.meterTag "Meter".toList rfl _ _).2.1 _).mpr flawed⟩

end Wrapped

end Nominal
