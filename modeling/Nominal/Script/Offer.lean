import Nominal.Script.Run

/-! The steps that a wrapper has. Whether a wrapper has a step is decided by the tag
and by the interface of the wrapped value, never by the values in the step, so the
question makes sense before those values are known. A wrapper answers `unsupported`
to the steps that it does not have, in every state, and to no others. -/

namespace Nominal.Wrapped

variable {V W : Type}

def offers (tag : Tag) (I : Interface V) : Step W → Bool
  | .wrap _ | .assign _ | .replace _ => true
  | .look .borrow | .look .extract => true
  | .look .clone => (I.wrap tag).clonable
  | .look .copy | .copyThenAssign _ => (I.wrap tag).copyable
  | .reset | .take => (I.wrap tag).initial?.isSome
  | .map (.constant _) | .map .identity => true
  | .map .square => (I.operate? .mul).isSome
  | .map .double => (I.operate? .add).isSome
  | .map .abs => I.abs?.isSome
  | .edit _ | .measure _ => I.text?.isSome
  | .operate op _ => ((I.wrap tag).operate? op).isSome
  | .compound op _ => ((I.wrap tag).assign? op).isSome
  | .negate => (I.wrap tag).neg?.isSome
  | .move _ .after | .chain _ => (I.moveMethod? tag).isSome
  | .move _ .before => (I.moveMethod? tag).isSome && (I.wrap tag).clonable
  | .step _ => (I.wrap tag).step?.isSome
  | .bareStep _ => tag.name?.isSome && I.step?.isSome
  | .relate .eq _ | .relate .ne _ => (I.wrap tag).equal?.isSome
  | .relate .lt _ | .relate .le _ | .relate .gt _ | .relate .ge _ | .partialCompare _ =>
    (I.wrap tag).partialCompare?.isSome
  | .compare _ | .extremum _ _ | .clamp _ _ => (I.wrap tag).compare?.isSome
  | .hash => (I.wrap tag).hash?.isSome
  | .checked op _ => (I.checkedMethod? tag op).isSome
  | .saturating op _ => (I.saturatingMethod? tag op).isSome
  | .landmark l | .isLandmark l => (landmark? (I.wrap tag) l).isSome
  | .bound _ => (I.wrap tag).bounds?.isSome
  | .display _ => (I.wrap tag).display?.isSome
  | .debug _ => (I.wrap tag).debug?.isSome
  | .parse _ => (I.wrap tag).read?.isSome
  | .unavailable => false

variable {tag : Tag}

@[simp] theorem settle_unsupported_iff (w : Wrapped tag V)
    (next? : Option (Except Fault (Wrapped tag V))) :
    (settle w next?).1 = .unsupported ↔ next?.isSome = false := by
  match next? with
  | none => simp [settle]
  | some (.ok _) => simp [settle, answer]
  | some (.error _) => simp [settle]

@[simp] theorem inform_unsupported_iff (w : Wrapped tag V) (answer? : Option (Answer V)) :
    (inform w answer?).1 = .unsupported ↔ answer?.isSome = false := by
  cases answer? <;> simp [inform, answer]

@[simp] theorem write_unsupported_iff (s : Spec) (w : Wrapped tag V)
    (text? : Option (Spec → Wrapped tag V → Text)) :
    (write s w text?).1 = .unsupported ↔ text?.isSome = false := by
  match text? with
  | none => simp [write]
  | some text =>
    cases written : s.write fun s => text s w with
    | ok t => simp [write, answer, written]
    | error fault => simp [write, written]

theorem walk_ne_unsupported (move : Direction → Wrapped tag V → Except Fault (Wrapped tag V))
    (moves : List Direction) (w : Wrapped tag V) : (walk move moves w).1 ≠ .unsupported := by
  induction moves generalizing w with
  | nil => simp [walk, answer]
  | cons d rest ih => cases h : move d w <;> simp [walk, h, ih]

theorem isSome_withOperand {α : Type} (same? : Option (Wrapped tag V → Wrapped tag V → α))
    (bare? : Option (Wrapped tag V → V → α)) (w : Wrapped tag V) (rhs : Operand V)
    (agree : bare?.isSome = same?.isSome) :
    (withOperand same? bare? w rhs).isSome = same?.isSome := by
  cases rhs <;> simp [withOperand, agree]

@[simp] theorem isSome_equal? (I : Interface V) (rhs : Operand V) (w : Wrapped tag V) :
    (equal? I rhs w).isSome = (I.wrap tag).equal?.isSome := by
  simp [equal?, isSome_withOperand, Interface.wrap, Interface.equalBare?, Tag.isSome_forward]

@[simp] theorem isSome_partialCompare? (I : Interface V) (rhs : Operand V) (w : Wrapped tag V) :
    (partialCompare? I rhs w).isSome = (I.wrap tag).partialCompare?.isSome := by
  simp [partialCompare?, isSome_withOperand, Interface.wrap, Interface.partialCompareBare?,
    Tag.isSome_forward]

/-- A step is answered `unsupported` exactly where the wrapper does not have it, so
neither the state nor the values in the step have a say in it. -/
theorem perform_unsupported_iff (I : Interface V) (w : Wrapped tag V) (s : Step V) :
    (perform I w s).1 = .unsupported ↔ offers tag I s = false := by
  cases s with
  | wrap v => simp [perform, offers, answer]
  | assign v => simp [perform, offers, answer]
  | reset => simp [perform, offers, settleTotal]
  | look how => cases how <;> simp [perform, offers, look, answer]
  | replace v => simp [perform, offers, answer]
  | take => cases h : (I.wrap tag).initial? <;> simp [perform, offers, answer, h]
  | copyThenAssign v => cases h : (I.wrap tag).copyable <;> simp [perform, offers, answer, h]
  | map g => cases g <;> simp [perform, offers, mapping?]
  | edit e => simp [perform, offers, settleTotal]
  | measure m => simp [perform, offers]
  | operate op rhs =>
    simp [perform, offers, operate, isSome_withOperand, Interface.wrap, Interface.operateBare?,
      Tag.isSome_forward]
  | compound op rhs =>
    simp [perform, offers, compound, isSome_withOperand, Interface.wrap, Interface.assignBare?,
      Tag.isSome_forward]
  | negate => simp [perform, offers]
  | move d moment =>
    cases h : I.moveMethod? tag with
    | none => cases moment <;> simp [perform, offers, moveBy, h]
    | some move =>
      cases moment with
      | after => cases hm : move d w <;> simp [perform, offers, moveBy, answer, h, hm]
      | before =>
        cases hc : (I.wrap tag).clonable <;> cases hm : move d w <;>
          simp [perform, offers, moveBy, answer, h, hc, hm]
  | chain moves =>
    cases h : I.moveMethod? tag <;> simp [perform, offers, h, walk_ne_unsupported]
  | step d => simp [perform, offers]
  | bareStep d => simp [perform, offers, Tag.isSome_forward]
  | relate r rhs => cases r <;> simp [perform, offers, Relation.decide?]
  | partialCompare rhs => simp [perform, offers]
  | compare v => simp [perform, offers]
  | extremum e v => simp [perform, offers, settleTotal]
  | clamp low high => simp [perform, offers]
  | hash => simp [perform, offers]
  | checked op rhs =>
    cases h : I.checkedMethod? tag op with
    | none => simp [perform, offers, checked, h]
    | some method =>
      cases hm : method w (rhs.contribution w.value) <;>
        simp [perform, offers, checked, answer, h, hm]
  | saturating op rhs => simp [perform, offers, saturating, settleTotal]
  | landmark l => simp [perform, offers, settleTotal]
  | isLandmark l => simp [perform, offers]
  | bound b => simp [perform, offers, settleTotal]
  | display s => simp [perform, offers]
  | debug s => simp [perform, offers]
  | parse input =>
    cases h : (I.wrap tag).read? with
    | none => simp [perform, offers, parse, h]
    | some read => cases hr : read input <;> simp [perform, offers, parse, answer, h, hr]
  | unavailable => simp [perform, offers]

end Nominal.Wrapped
