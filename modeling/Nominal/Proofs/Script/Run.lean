import Nominal.Script.Offer

/-! Scripts run in parts, and what the operators of a wrapper come down to. The two
forms of an operator, with a wrapper and with a bare value on the right, are kept
apart in the run. Each lemma here puts them together again: all that counts is the
value that the operand contributes. -/

namespace Nominal

theorem Tag.forward_named {α β : Type} {tag : Tag} {name : Text} (named : tag.name? = some name)
    (operation : α) (lift : Text → α → β) :
    tag.forward (some operation) lift = some (lift name operation) := by
  unfold Tag.forward
  rw [named]

namespace Interface

variable {V : Type} {I : Interface V} {tag : Tag} {name : Text} (named : tag.name? = some name)
include named

theorem compare?_wrap {compare : V → V → Ordering} (has : I.compare? = some compare) :
    (I.wrap tag).compare? = some fun a b => compare a.value b.value := by
  simp only [wrap, has, Tag.forward_named named]

theorem partialCompare?_wrap {compare : V → V → Option Ordering}
    (has : I.partialCompare? = some compare) :
    (I.wrap tag).partialCompare? = some fun a b => compare a.value b.value := by
  simp only [wrap, has, Tag.forward_named named]

theorem equal?_wrap {equal : V → V → Bool} (has : I.equal? = some equal) :
    (I.wrap tag).equal? = some fun a b => equal a.value b.value := by
  simp only [wrap, has, Tag.forward_named named]

theorem hash?_wrap {hash : V → List UInt8} (has : I.hash? = some hash) :
    (I.wrap tag).hash? = some fun w => hash w.value := by
  simp only [wrap, has, Tag.forward_named named]

theorem display?_wrap {display : Spec → V → Text} (has : I.display? = some display) :
    (I.wrap tag).display? = some fun s w => display s w.value := by
  simp only [wrap, has, Tag.forward_named named]

theorem debug?_wrap {debug : Spec → V → Text} (has : I.debug? = some debug) :
    (I.wrap tag).debug? = some fun s w => s.labelled name (debug s w.value) := by
  simp only [wrap, has, Tag.forward_named named]

theorem read?_wrap {read : Text → Except Rejection V} (has : I.read? = some read) :
    (I.wrap tag).read? = some (Wrapped.readAs name read) := by
  simp only [wrap, has, Tag.forward_named named]

end Interface

namespace Wrapped

variable {tag : Tag} {V : Type}

theorem isSome_step?_wrap (I : Interface V) (tag : Tag) :
    (I.wrap tag).step?.isSome = (tag.name?.isSome && I.step?.isSome) := by
  simp only [Interface.step?, Interface.wrap, Tag.forward]
  cases tag.name? with
  | none => rfl
  | some name => cases I.one? <;> cases I.assign? .add <;> cases I.assign? .sub <;> rfl

theorem run_append (I : Interface V) (w : Wrapped tag V) (before after : List (Step V)) :
    run I w (before ++ after) = run I w before ++ run I (final I w before) after := by
  induction before generalizing w with
  | nil => rfl
  | cons s rest ih => simp only [List.cons_append, run, final, ih]

theorem final_append (I : Interface V) (w : Wrapped tag V) (before after : List (Step V)) :
    final I w (before ++ after) = final I (final I w before) after := by
  induction before generalizing w with
  | nil => rfl
  | cons s rest ih => exact ih _

/-- The two forms of an operation that a tag takes over, where they agree on the value
that the operand contributes. -/
theorem withOperand_forward {α β : Type} (operation? : Option α)
    (same : Text → α → Wrapped tag V → Wrapped tag V → β) (bare : Text → α → Wrapped tag V → V → β)
    (agree : ∀ name act w v, same name act w ⟨v⟩ = bare name act w v)
    (w : Wrapped tag V) (rhs : Operand V) :
    withOperand (tag.forward operation? same) (tag.forward operation? bare) w rhs =
      tag.forward operation? fun name act => bare name act w (rhs.contribution w.value) := by
  unfold Tag.forward
  cases tag.name? <;> cases operation? <;> cases rhs <;>
    simp [withOperand, Operand.contribution, ← agree]

theorem operate_eq (I : Interface V) (op : Operator) (rhs : Operand V) (w : Wrapped tag V) :
    operate I op rhs w = settle w (tag.forward (I.operate? op) fun _ act =>
      (act w.value (rhs.contribution w.value)).map Wrapped.mk) :=
  congrArg (settle w) (withOperand_forward _ _ _ (fun _ _ _ _ => rfl) w rhs)

theorem compound_eq (I : Interface V) (op : Operator) (rhs : Operand V) (w : Wrapped tag V) :
    compound I op rhs w = settle w (tag.forward (I.assign? op) fun _ act =>
      (act w.value (rhs.contribution w.value)).map Wrapped.mk) :=
  congrArg (settle w) (withOperand_forward _ _ _ (fun _ _ _ _ => rfl) w rhs)

theorem equal?_eq (I : Interface V) (rhs : Operand V) (w : Wrapped tag V) :
    equal? I rhs w = tag.forward I.equal? fun _ equal =>
      equal w.value (rhs.contribution w.value) :=
  withOperand_forward _ _ _ (fun _ _ _ _ => rfl) w rhs

theorem partialCompare?_eq (I : Interface V) (rhs : Operand V) (w : Wrapped tag V) :
    partialCompare? I rhs w = tag.forward I.partialCompare? fun _ compare =>
      compare w.value (rhs.contribution w.value) :=
  withOperand_forward _ _ _ (fun _ _ _ _ => rfl) w rhs

theorem write_some (s : Spec) (w : Wrapped tag V) (text : Spec → Wrapped tag V → Text) :
    write s w (some text) =
      if s.InRange then answer (.text (text s w)) w else (.fault .specOutOfRange, w) := by
  by_cases fits : s.InRange <;> simp only [write, Spec.write, fits, if_true, if_false]

theorem perform_parse_of_named {name : Text} (named : tag.name? = some name) (I : Interface V)
    (w : Wrapped tag V) (input : Text) :
    perform I w (.parse input) =
      match I.read? with
      | none => (.unsupported, w)
      | some read => match read input with
        | .ok v => answer .accepted ⟨v⟩
        | .error cause => answer (.rejected (.named name input cause)) w := by
  simp only [perform, parse, Interface.wrap]
  cases I.read? with
  | none => simp only [Tag.forward, named]
  | some read =>
    simp only [Tag.forward_named named, readAs]
    cases read input <;> rfl

end Wrapped

end Nominal
