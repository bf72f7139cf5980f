import Nominal.Text.Basic

/-! The UTF-8 form of a text gives the text back. What follows a character cannot be taken
for a part of it, so characters can be told apart one after another, and a byte with which
no character begins shows where the text ends. -/

namespace Nominal.Text

theorem char_eq_of_append {c d : Char} {s t : List UInt8}
    (same : String.utf8EncodeChar c ++ s = String.utf8EncodeChar d ++ t) : c = d := by
  have decoded := congrArg (fun bytes => bytes.toByteArray.utf8DecodeChar? 0) same
  simp only [List.toByteArray_append, ByteArray.utf8DecodeChar?_utf8EncodeChar_append] at decoded
  exact Option.some.inj decoded

theorem isFirstByte_of_append {c : Char} {b : UInt8} {s t : List UInt8}
    (same : String.utf8EncodeChar c ++ s = b :: t) : b.IsUTF8FirstByte := by
  have first : (String.utf8EncodeChar c ++ s)[0]? = some b := by rw [same]; rfl
  have nonempty : 0 < (String.utf8EncodeChar c).length := by
    rw [String.length_utf8EncodeChar]
    exact c.utf8Size_pos
  rw [List.getElem?_append_left nonempty, List.getElem?_eq_getElem nonempty] at first
  rw [← Option.some.inj first]
  exact UInt8.isUTF8FirstByte_getElem_zero_utf8EncodeChar

theorem eq_of_bytes_append {closing : UInt8} (closes : ¬ closing.IsUTF8FirstByte) {s t : Text}
    {x y : List UInt8} (same : s.bytes ++ closing :: x = t.bytes ++ closing :: y) : s = t := by
  induction s generalizing t with
  | nil =>
    cases t with
    | nil => rfl
    | cons d t =>
      rw [bytes_cons, List.append_assoc] at same
      exact absurd (isFirstByte_of_append same.symm) closes
  | cons c s ih =>
    cases t with
    | nil =>
      rw [bytes_cons, List.append_assoc] at same
      exact absurd (isFirstByte_of_append same) closes
    | cons d t =>
      rw [bytes_cons, bytes_cons, List.append_assoc, List.append_assoc] at same
      obtain rfl := char_eq_of_append same
      rw [ih (List.append_cancel_left same)]

theorem bytes_injective {s t : Text} (same : s.bytes = t.bytes) : s = t :=
  eq_of_bytes_append (show ¬ (0xff : UInt8).IsUTF8FirstByte by decide) (x := []) (y := [])
    (by rw [same])

end Nominal.Text
