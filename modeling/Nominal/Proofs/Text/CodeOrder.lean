import Mathlib.Algebra.BigOperators.Group.List.Basic
import Mathlib.Algebra.Ring.Nat
import Nominal.Interface.Plain
import Nominal.Proofs.Text.Bytes

/-! The order of texts by their bytes. A character is written as a first byte and up to three
more that carry six bits of the code each, the higher ones first. The first byte tells how many
follow, and grows with their number, so characters of different lengths are ordered by it; for
characters of one length the bytes are the digits of the code. Either way the bytes are in the
order of the codes, and so are texts, character by character. -/

namespace Nominal

theorem compare_add_right (m n shift : Nat) : compare (m + shift) (n + shift) = compare m n := by
  rcases Nat.lt_trichotomy m n with less | rfl | greater
  · rw [Nat.compare_eq_lt.mpr less, Nat.compare_eq_lt.mpr (Nat.add_lt_add_right less shift)]
  · rw [Nat.compare_eq_eq.mpr rfl, Nat.compare_eq_eq.mpr rfl]
  · rw [Nat.compare_eq_gt.mpr greater, Nat.compare_eq_gt.mpr (Nat.add_lt_add_right greater shift)]

theorem compare_mul_add {base m n : Nat} (hm : m < base) (hn : n < base) (p q : Nat) :
    compare (m + p * base) (n + q * base) = (compare p q).then (compare m n) := by
  rcases Nat.lt_trichotomy p q with less | rfl | greater
  · have room := Nat.mul_le_mul_right base less
    rw [Nat.succ_mul] at room
    rw [Nat.compare_eq_lt.mpr less, Nat.compare_eq_lt.mpr (by omega)]
    rfl
  · rw [compare_add_right, Nat.compare_eq_eq.mpr rfl]
    rfl
  · have room := Nat.mul_le_mul_right base greater
    rw [Nat.succ_mul] at room
    rw [Nat.compare_eq_gt.mpr greater, Nat.compare_eq_gt.mpr (by omega)]
    rfl

theorem compare_div_then_mod {base : Nat} (positive : 0 < base) (m n : Nat) :
    (compare (m / base) (n / base)).then (compare (m % base) (n % base)) = compare m n := by
  rw [← compare_mul_add (Nat.mod_lt m positive) (Nat.mod_lt n positive), Nat.mod_add_div',
    Nat.mod_add_div']

theorem compare_ofNat {m n : Nat} (hm : m < 256) (hn : n < 256) :
    compare (UInt8.ofNat m) (UInt8.ofNat n) = compare m n := by
  have codes : compareOfLessAndEq (UInt8.ofNat m) (UInt8.ofNat n) = compareOfLessAndEq m n := by
    simp only [compareOfLessAndEq, UInt8.lt_iff_toNat_lt, ← UInt8.toNat_inj,
      UInt8.toNat_ofNat_of_lt' hm, UInt8.toNat_ofNat_of_lt' hn]
  exact codes

namespace Text

/-- How many bytes follow the first one. -/
def following (code : Nat) : Nat :=
  if code ≤ 0x7f then 0 else if code ≤ 0x7ff then 1 else if code ≤ 0xffff then 2 else 3

/-- Where the first bytes begin that announce so many more. -/
def announce : Nat → Nat
  | 0 => 0
  | 1 => 192
  | 2 => 224
  | _ => 240

def firstByte (code : Nat) : Nat := code / 64 ^ following code + announce (following code)

/-- The last digits of a code, six bits to a byte, the higher ones first. -/
def continuation : Nat → Nat → List UInt8
  | 0, _ => []
  | count + 1, code =>
    UInt8.ofNat (code / 64 ^ count % 64 + 128) :: continuation count code

theorem toNat_lt (c : Char) : c.toNat < 0x110000 := by
  have valid : c.toNat < 0xd800 ∨ 0xdfff < c.toNat ∧ c.toNat < 0x110000 := c.valid
  omega

theorem utf8EncodeChar_eq (c : Char) : String.utf8EncodeChar c =
    UInt8.ofNat (firstByte c.toNat) :: continuation (following c.toNat) c.toNat := by
  have small := toNat_lt c
  have same : c.val.toNat = c.toNat := rfl
  simp only [String.utf8EncodeChar, firstByte, following, same]
  -- The first byte holds all the higher digits, so nothing is cut off there.
  split
  · simp [continuation, announce]
  split
  · have high : c.toNat / 64 % 32 = c.toNat / 64 := Nat.mod_eq_of_lt (by omega)
    simp [continuation, announce, high]
  split
  · have high : c.toNat / 4096 % 16 = c.toNat / 4096 := Nat.mod_eq_of_lt (by omega)
    simp [continuation, announce, high]
  · have high : c.toNat / 262144 % 8 = c.toNat / 262144 := Nat.mod_eq_of_lt (by omega)
    simp [continuation, announce, high]

theorem firstByte_cases {code : Nat} (small : code < 0x110000) :
    (following code = 0 ∧ code ≤ 0x7f ∧ firstByte code < 192) ∨
    (following code = 1 ∧ 0x7f < code ∧ code ≤ 0x7ff ∧
      192 ≤ firstByte code ∧ firstByte code < 224) ∨
    (following code = 2 ∧ 0x7ff < code ∧ code ≤ 0xffff ∧
      224 ≤ firstByte code ∧ firstByte code < 240) ∨
    (following code = 3 ∧ 0xffff < code ∧ 240 ≤ firstByte code ∧ firstByte code < 256) := by
  by_cases one : code ≤ 0x7f
  · have count : following code = 0 := if_pos one
    have byte : firstByte code = code / 1 + 0 := by rw [firstByte, count]; rfl
    omega
  by_cases two : code ≤ 0x7ff
  · have count : following code = 1 := by rw [following, if_neg one, if_pos two]
    have byte : firstByte code = code / 64 + 192 := by rw [firstByte, count]; rfl
    omega
  by_cases three : code ≤ 0xffff
  · have count : following code = 2 := by rw [following, if_neg one, if_neg two, if_pos three]
    have byte : firstByte code = code / 4096 + 224 := by rw [firstByte, count]; rfl
    omega
  · have count : following code = 3 := by rw [following, if_neg one, if_neg two, if_neg three]
    have byte : firstByte code = code / 262144 + 240 := by rw [firstByte, count]; rfl
    omega

theorem firstByte_lt {code : Nat} (small : code < 0x110000) : firstByte code < 256 := by
  have ranges := firstByte_cases small
  omega

theorem lt_of_following_lt {m n : Nat} (hm : m < 0x110000) (hn : n < 0x110000)
    (shorter : following m < following n) : m < n ∧ firstByte m < firstByte n := by
  have low := firstByte_cases hm
  have high := firstByte_cases hn
  omega

theorem compareLex_continuation (count m n : Nat) (s t : List UInt8) :
    List.compareLex Ord.compare (continuation count m ++ s) (continuation count n ++ t) =
      (Ord.compare (m % 64 ^ count) (n % 64 ^ count)).then (List.compareLex Ord.compare s t) := by
  induction count with
  | zero =>
    simp only [Nat.pow_zero, Nat.mod_one]
    rfl
  | succ count ih =>
    have digit (k : Nat) : k / 64 ^ count % 64 = k % 64 ^ (count + 1) / 64 ^ count := by
      rw [Nat.pow_succ, Nat.mod_mul_right_div_self]
    have rest (k : Nat) : k % 64 ^ count = k % 64 ^ (count + 1) % 64 ^ count := by
      rw [Nat.mod_mod_of_dvd k (Nat.pow_dvd_pow 64 (Nat.le_succ count))]
    have byte (k : Nat) : k % 64 + 128 < 256 := by omega
    rw [continuation, continuation, List.cons_append, List.cons_append, List.compareLex_cons_cons,
      compare_ofNat (byte _) (byte _), compare_add_right, ih, ← Ordering.then_assoc, digit, digit,
      rest, rest n, compare_div_then_mod (Nat.pow_pos (by decide))]

theorem compareLex_utf8EncodeChar (c d : Char) (s t : List UInt8) :
    List.compareLex Ord.compare (String.utf8EncodeChar c ++ s) (String.utf8EncodeChar d ++ t) =
      (compareChars c d).then (List.compareLex Ord.compare s t) := by
  have hc := toNat_lt c
  have hd := toNat_lt d
  rw [utf8EncodeChar_eq, utf8EncodeChar_eq, List.cons_append, List.cons_append,
    List.compareLex_cons_cons, compare_ofNat (firstByte_lt hc) (firstByte_lt hd), compareChars]
  -- The first bytes decide between characters of different lengths, all bytes between others.
  rcases Nat.lt_trichotomy (following c.toNat) (following d.toNat) with shorter | same | longer
  · obtain ⟨code, byte⟩ := lt_of_following_lt hc hd shorter
    rw [Nat.compare_eq_lt.mpr code, Nat.compare_eq_lt.mpr byte]
    rfl
  · rw [firstByte, firstByte, same, compare_add_right, compareLex_continuation,
      ← Ordering.then_assoc, compare_div_then_mod (Nat.pow_pos (by decide))]
  · obtain ⟨code, byte⟩ := lt_of_following_lt hd hc longer
    rw [Nat.compare_eq_gt.mpr code, Nat.compare_eq_gt.mpr byte]
    rfl

theorem compare_eq_compareLex_compareChars (s t : Text) :
    compare s t = List.compareLex compareChars s t := by
  induction s generalizing t with
  | nil =>
    cases t with
    | nil => rfl
    | cons d t =>
      rw [compare, bytes_nil, bytes_cons, utf8EncodeChar_eq, List.cons_append,
        List.compareLex_nil_cons, List.compareLex_nil_cons]
  | cons c s ih =>
    cases t with
    | nil =>
      rw [compare, bytes_nil, bytes_cons, utf8EncodeChar_eq, List.cons_append,
        List.compareLex_cons_nil, List.compareLex_cons_nil]
    | cons d t =>
      rw [compare, bytes_cons, bytes_cons, compareLex_utf8EncodeChar, List.compareLex_cons_cons,
        ← ih, compare]

theorem byteLength_eq_sum (t : Text) : t.byteLength = (t.map Char.utf8Size).sum := by
  simp only [byteLength, bytes, List.length_flatMap, String.length_utf8EncodeChar]

end Text

end Nominal
