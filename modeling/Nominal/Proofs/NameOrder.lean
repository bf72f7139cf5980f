import Nominal.Catalogue
import Nominal.Proofs.Collection.Lexicographic
import Nominal.Proofs.Comparison
import Nominal.Proofs.Text.CodeOrder

/-! Names and letters. A name is a wrapped text and a letter a wrapped character. Names are
compared by their bytes and letters by their codes, and to compare names is to compare the
lists of their letters. The length of a name counts bytes, and a digest is fed one more. -/

namespace Nominal.Wrapped

structure OrdersByCodes (name letter : Tag) (lex : Text → Text → Ordering) : Prop where
  names : ComparesBy Interface.text fun s t : Wrapped name Text => lex s.value t.value
  letters : ComparesBy Interface.char fun c d : Wrapped letter Char =>
    compare c.value.toNat d.value.toNat
  lists : ∀ s t : Text,
    performList Interface.char (s.map Wrapped.mk : List (Wrapped letter Char)) (.lexCompare t) =
      (.done (.ordering (lex s t)), s.map Wrapped.mk)
  codes : ∀ s t, lex s t = List.compareLex (fun c d => compare c.toNat d.toNat) s t
  bytes : ∀ s t : Text, lex s t = List.compareLex compare s.bytes t.bytes
  bytes_iff : ∀ s t : Text, s.bytes = t.bytes ↔ s = t
  continued : ∀ s t : Text, t ≠ [] → lex s (s ++ t) = .lt
  length : ∀ w : Wrapped name Text, perform Interface.text w (.measure .bytes) =
    answer (.count (w.value.map Char.utf8Size).sum) w
  hash : ∀ w : Wrapped name Text, ∃ fed, perform Interface.text w .hash = answer (.bytes fed) w ∧
    fed.length = (w.value.map Char.utf8Size).sum + 1

theorem ordersByCodes {name letter : Tag} {n l : Text} (named : name.name? = some n)
    (lettered : letter.name? = some l) :
    OrdersByCodes name letter (List.compareLex compareChars) := by
  obtain ⟨bytewise, total, -, -, partially, equal⟩ := Ty.exists_order .text rfl
  obtain ⟨coded, totalChars, transitive, -, partiallyChars, equalChars⟩ := Ty.exists_order .char rfl
  have codewise : bytewise = List.compareLex compareChars := by
    obtain rfl : Text.compare = bytewise := Option.some.inj total
    funext s t
    exact Text.compare_eq_compareLex_compareChars s t
  subst codewise
  obtain rfl : compareChars = coded := Option.some.inj totalChars
  have compares := Interface.compare?_wrap (I := Interface.char) lettered totalChars
  have lettersOf (s t : Text) : List.compareLex compareChars s t =
      List.compareLex (fun c d : Wrapped letter Char => compareChars c.value d.value)
        (s.map Wrapped.mk) (t.map Wrapped.mk) := by
    apply Collection.compareLex_map
    exact fun _ _ => rfl
  have feeds : Interface.text.hash? = some fun t => t.bytes ++ [0xff] := rfl
  have digests := Interface.hash?_wrap named feeds
  refine ⟨comparesBy named total partially equal,
    comparesBy lettered totalChars partiallyChars equalChars, fun s t => ?_, fun _ _ => rfl,
    fun s t => (Text.compare_eq_compareLex_compareChars s t).symm,
    fun s t => ⟨Text.bytes_injective, congrArg Text.bytes⟩,
    fun s t => Collection.compareLex_append_self transitive s, fun w => ?_,
    fun w => ⟨w.value.bytes ++ [0xff], ?_, ?_⟩⟩
  · simp only [performList, compares, Option.map_some, report, lettersOf s t]
  · rw [← Text.byteLength_eq_sum]
    rfl
  · simp only [perform, digests, Option.map_some]
    rfl
  · rw [List.length_append, ← Text.byteLength_eq_sum]
    rfl

/-- For the bytes this is the order of unsigned numbers, in which one name that goes on after the
other has ended is greater, and two names with the same bytes have the same letters. -/
theorem names_in_code_order (name letter : Tag) (named : name.name?.isSome = true)
    (lettered : letter.name?.isSome = true) : ∃ lex, OrdersByCodes name letter lex := by
  obtain ⟨n, named⟩ := Option.isSome_iff_exists.mp named
  obtain ⟨l, lettered⟩ := Option.isSome_iff_exists.mp lettered
  exact ⟨_, ordersByCodes named lettered⟩

/-- A name that would come after the other one in units of sixteen bits. -/
theorem names_in_code_order_units :
    let s : Text := ['\uffff']
    let t : Text := ['😀', 'a']
    let letters (u : Text) : List (Wrapped (Tag.named "Letter") Char) := u.map Wrapped.mk
    Catalogue.nameTag.name?.isSome = true ∧ (Tag.named "Letter").name?.isSome = true ∧
      perform Interface.text (⟨s⟩ : Wrapped Catalogue.nameTag Text) (.compare t) =
        answer (.ordering (some .lt)) ⟨s⟩ ∧
      performList Interface.char (letters s) (.lexCompare t) =
        (.done (.ordering .lt), letters s) ∧
      perform Interface.text (⟨t⟩ : Wrapped Catalogue.nameTag Text) (.measure .bytes) =
        answer (.count 5) ⟨t⟩ := by
  intro s t letters
  have named : Catalogue.nameTag.name?.isSome = true := rfl
  have lettered : (Tag.named "Letter").name?.isSome = true := rfl
  obtain ⟨lex, orders⟩ := names_in_code_order Catalogue.nameTag (Tag.named "Letter") named lettered
  have less : lex s t = .lt := (orders.codes s t).trans (by decide)
  refine ⟨named, lettered, ?_, ?_, orders.length ⟨t⟩⟩
  · rw [← less]
    exact orders.names.order ⟨s⟩ t
  · rw [← less]
    exact orders.lists s t

end Nominal.Wrapped
