import Nominal.Proofs.Integer.Residue
import Nominal.Proofs.Interface.Order

/-! Digests behind interfaces. What a value feeds to a digest shows where it ends: a number
has as many bytes as its format, a text is closed by a byte with which no character begins,
a list says first how many items it has. So no value feeds the beginning of what another
feeds, and what several values feed one after another can be taken apart again. -/

namespace Nominal

variable {V W : Type}

/-- Whatever is fed afterwards, two values with one beginning are the same value. -/
def SelfDelimiting (fits : V → Prop) (feed : V → List UInt8) : Prop :=
  ∀ x y, fits x → fits y → ∀ s t, feed x ++ s = feed y ++ t → x = y

namespace SelfDelimiting

variable {fits : V → Prop} {fits' : W → Prop} {feed : V → List UInt8} {feed' : W → List UInt8}

theorem prefix_iff (delimits : SelfDelimiting fits feed) {x y : V} (hx : fits x) (hy : fits y) :
    feed x <+: feed y ↔ x = y := by
  constructor
  · rintro ⟨rest, same⟩
    have closed : feed x ++ rest = feed y ++ [] := by rw [same, List.append_nil]
    exact delimits x y hx hy rest [] closed
  · rintro rfl
    exact List.prefix_rfl

theorem eq_of_flatMap (delimits : SelfDelimiting fits feed) {xs ys : List V}
    (long : xs.length = ys.length) (hx : ∀ x ∈ xs, fits x) (hy : ∀ y ∈ ys, fits y)
    {s t : List UInt8} (same : xs.flatMap feed ++ s = ys.flatMap feed ++ t) : xs = ys := by
  induction xs generalizing ys with
  | nil => exact (List.eq_nil_of_length_eq_zero long.symm).symm
  | cons x xs ih =>
    cases ys with
    | nil => cases long
    | cons y ys =>
      rw [List.forall_mem_cons] at hx hy
      rw [List.flatMap_cons, List.flatMap_cons, List.append_assoc, List.append_assoc] at same
      obtain rfl := delimits x y hx.1 hy.1 _ _ same
      rw [ih (Nat.succ.inj long) hx.2 hy.2 (List.append_cancel_left same)]

theorem of_key (delimits : SelfDelimiting fits feed) {key : W → V}
    (injective : ∀ a b, key a = key b → a = b) :
    SelfDelimiting (fun w => fits (key w)) fun w => feed (key w) := by
  intro a b ha hb s t same
  exact injective a b (delimits _ _ ha hb s t same)

theorem mono (delimits : SelfDelimiting fits feed) {fewer : V → Prop}
    (implied : ∀ v, fewer v → fits v) : SelfDelimiting fewer feed :=
  fun x y hx hy => delimits x y (implied x hx) (implied y hy)

theorem pair (front : SelfDelimiting fits feed) (back : SelfDelimiting fits' feed') :
    SelfDelimiting (fun p : V × W => fits p.1 ∧ fits' p.2) fun p => feed p.1 ++ feed' p.2 := by
  rintro ⟨a, b⟩ ⟨c, d⟩ hp hq s t same
  simp only [List.append_assoc] at same
  obtain rfl : a = c := front a c hp.1 hq.1 _ _ same
  obtain rfl : b = d := back b d hp.2 hq.2 s t (List.append_cancel_left same)
  rfl

end SelfDelimiting

theorem selfDelimiting_littleEndian (count : Nat) :
    SelfDelimiting (· < 256 ^ count) (littleEndian count) := by
  induction count with
  | zero =>
    intro n m hn hm _ _ _
    omega
  | succ count ih =>
    intro n m hn hm s t same
    rw [Nat.pow_succ] at hn hm
    rw [littleEndian, littleEndian, List.cons_append, List.cons_append, List.cons.injEq] at same
    have low : n % 256 = m % 256 := by simpa using congrArg UInt8.toNat same.1
    have high : n / 256 = m / 256 := ih _ _ (by omega) (by omega) s t same.2
    omega

theorem selfDelimiting_countBytes : SelfDelimiting (· < 2 ^ 64) countBytes :=
  selfDelimiting_littleEndian 8

theorem selfDelimiting_bytes (f : IntFormat) :
    SelfDelimiting (fun _ => True) (FixedInt.bytes (f := f)) := by
  have span : f.modulus = 256 ^ f.bytes := Nat.pow_mul 2 8 f.bytes
  have positive : (0 : Int) < f.modulus := Int.natCast_pos.mpr (Nat.two_pow_pos f.bits)
  have small (a : FixedInt f) : a.pattern < 256 ^ f.bytes := by
    rw [← span, ← Int.ofNat_lt, FixedInt.natCast_pattern]
    exact Int.emod_lt_of_pos _ positive
  have patterns := (selfDelimiting_littleEndian f.bytes).of_key fun (a b : FixedInt f) =>
    FixedInt.pattern_inj
  exact patterns.mono fun a _ => small a

theorem selfDelimiting_charBytes : SelfDelimiting (fun _ => True) charBytes := by
  have codes := (selfDelimiting_littleEndian 4).of_key fun (c d : Char) => Char.toNat_inj.mp
  have small (c : Char) : c.toNat < 256 ^ 4 := c.val.toNat_lt
  exact codes.mono fun c _ => small c

theorem selfDelimiting_text :
    SelfDelimiting (fun _ => True) fun t : Text => t.bytes ++ [0xff] := by
  intro x y _ _ s t same
  rw [List.append_assoc, List.append_assoc] at same
  have closes : ¬ (0xff : UInt8).IsUTF8FirstByte := by decide
  exact Text.eq_of_bytes_append closes same

theorem selfDelimiting_truth :
    SelfDelimiting (fun _ => True) fun b : Bool => [if b then (1 : UInt8) else 0] := by
  intro a b _ _ s t same
  have first := List.head_eq_of_cons_eq same
  revert first
  cases a <;> cases b <;> decide

namespace SelfDelimiting

variable {fits : V → Prop} {feed : V → List UInt8}

theorem option (inner : SelfDelimiting fits feed) :
    SelfDelimiting (fun v : Option V => ∀ w ∈ v, fits w) (Interface.hashOption feed) := by
  -- The count in front decides whether a value follows.
  have counts {s t : List UInt8} : countBytes 0 ++ s ≠ countBytes 1 ++ t := by
    intro same
    have := selfDelimiting_countBytes 0 1 (by decide) (by decide) s t same
    omega
  intro a b ha hb s t same
  cases a with
  | none =>
    cases b with
    | none => rfl
    | some b =>
      rw [Interface.hashOption, Interface.hashOption, List.append_assoc] at same
      exact absurd same counts
  | some a =>
    cases b with
    | none =>
      rw [Interface.hashOption, Interface.hashOption, List.append_assoc] at same
      exact absurd same.symm counts
    | some b =>
      rw [Interface.hashOption, Interface.hashOption, List.append_assoc, List.append_assoc] at same
      rw [inner a b (ha a rfl) (hb b rfl) s t (List.append_cancel_left same)]

theorem list (inner : SelfDelimiting fits feed) :
    SelfDelimiting (fun vs : List V => vs.length < 2 ^ 64 ∧ ∀ v ∈ vs, fits v)
      fun vs => countBytes vs.length ++ vs.flatMap feed := by
  intro xs ys hx hy s t same
  simp only [List.append_assoc] at same
  have long := selfDelimiting_countBytes _ _ hx.1 hy.1 _ _ same
  rw [long] at same
  exact inner.eq_of_flatMap long hx.2 hy.2 (List.append_cancel_left same)

end SelfDelimiting

namespace Ty

/-- Whether the lists in a value are short enough for a count in eight bytes, and the
addresses in it for the machine. No value that fits into a memory is excluded. -/
def Addressable : (t : Ty) → t.Carrier → Prop
  | pair first second => fun p => first.Addressable p.1 ∧ second.Addressable p.2
  | option inner => fun v : Option inner.Carrier => ∀ w ∈ v, inner.Addressable w
  | list inner => fun vs : List inner.Carrier =>
    vs.length < 2 ^ 64 ∧ ∀ v ∈ vs, inner.Addressable v
  | shared inner | view inner => inner.Addressable
  | address _ => fun n : Nat => n < 2 ^ 64
  | wrapped _ inner => fun w => inner.Addressable w.value
  | _ => fun _ => True

def isFlat : Ty → Bool
  | list _ | address _ => false
  | pair first second => first.isFlat && second.isFlat
  | option inner | shared inner | view inner | wrapped _ inner => inner.isFlat
  | _ => true

theorem addressable_of_isFlat (t : Ty) (flat : t.isFlat = true) (v : t.Carrier) :
    t.Addressable v := by
  induction t with
  | pair first second ihFirst ihSecond =>
    have ⟨left, right⟩ := Bool.and_eq_true_iff.mp flat
    exact ⟨ihFirst left v.1, ihSecond right v.2⟩
  | option inner ih => exact fun w _ => ih flat w
  | shared inner ih | view inner ih => exact ih flat v
  | wrapped tag inner ih => exact ih flat v.value
  | list inner | address inner => cases flat
  | _ => trivial

theorem selfDelimiting (t : Ty) :
    ∀ feed ∈ t.interface.hash?, SelfDelimiting t.Addressable feed := by
  induction t with
  | int f | wrapping f | saturating f =>
    rintro _ ⟨⟩
    exact selfDelimiting_bytes f
  | float f =>
    rintro _ ⟨⟩
  | text | textView =>
    rintro _ ⟨⟩
    exact selfDelimiting_text
  | truth =>
    rintro _ ⟨⟩
    exact selfDelimiting_truth
  | char =>
    rintro _ ⟨⟩
    exact selfDelimiting_charBytes
  | unit =>
    rintro _ ⟨⟩ x y
    exact fun _ _ _ _ _ => rfl
  | pair first second ihFirst ihSecond =>
    intro feed has
    obtain ⟨front, hf, back, hs, rfl⟩ := Interface.mem_both.mp has
    exact (ihFirst front hf).pair (ihSecond back hs)
  | option inner ih =>
    intro feed has
    obtain ⟨feed, hf, rfl⟩ := Option.map_eq_some_iff.mp has
    exact (ih feed hf).option
  | list inner ih =>
    intro feed has
    obtain ⟨feed, hf, rfl⟩ := Option.map_eq_some_iff.mp has
    exact (ih feed hf).list
  | shared inner ih | view inner ih => exact ih
  | address inner _ =>
    rintro _ ⟨⟩
    exact selfDelimiting_countBytes
  | wrapped tag inner ih =>
    intro feed has
    obtain ⟨name, -, feed, hf, rfl⟩ := Tag.mem_forward.mp has
    exact (ih feed hf).of_key fun _ _ => Wrapped.ext

end Ty

end Nominal
