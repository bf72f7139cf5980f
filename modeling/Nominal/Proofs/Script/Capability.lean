import Nominal.Catalogue
import Nominal.Collection.Offer
import Nominal.Proofs.Capability
import Nominal.Proofs.Script.Failure

/-! Which steps run. What a wrapper lists as its capabilities and what its scripts can do are
two views of one interface. A step that is tied to a capability is answered `unsupported`
where the capability is missing and nowhere else, wherever it stands in a script, and then
it leaves the state alone. Without a name none of the forwarded steps runs. -/

namespace Nominal

variable {V W : Type}

def Step.capability? : Step V → Option Capability
  | .look .clone => some .clone
  | .look .copy | .copyThenAssign _ => some .copy
  | .reset | .take => some .default
  | .negate => some .neg
  | .move _ _ | .chain _ | .step _ | .bareStep _ => some .step
  | .compare _ | .extremum _ _ | .clamp _ _ => some .ord
  | .hash => some .hash
  | .landmark .zero | .isLandmark .zero => some .zero
  | .landmark .one | .isLandmark .one => some .one
  | .bound _ => some .bounded
  | .display _ => some .display
  | .debug _ => some .debug
  | .parse _ => some .parse
  | _ => none

def ListStep.capability? : ListStep V → Option Capability
  | .sort | .sortDescending | .orderedSet | .greatest | .least | .lexCompare _ => some .ord
  | .sum => some .sum
  | .sumRef => some .sumRef
  | .product => some .product
  | .productRef => some .productRef
  | .join => some .display
  | .debug _ => some .debug
  | _ => none

/-- Whether a step is one that a wrapper forwards: an operator, a comparison, a move, a named
method, a distinguished value, or a text to write or to read. -/
def Step.isForwarded : Step V → Bool
  | .operate _ _ | .compound _ _ | .negate => true
  | .move _ _ | .chain _ | .step _ | .bareStep _ => true
  | .relate _ _ | .partialCompare _ | .compare _ | .extremum _ _ | .clamp _ _ | .hash => true
  | .checked _ _ | .saturating _ _ => true
  | .landmark _ | .isLandmark _ | .bound _ => true
  | .display _ | .debug _ | .parse _ => true
  | _ => false

theorem Ty.clonable_of_one (t : Ty) (one : t.interface.one?.isSome = true) :
    t.interface.clonable = true := by
  induction t with
  | int f => rfl
  | wrapping f => rfl
  | float f => rfl
  | wrapped tag inner ih =>
    have forwarded : (tag.name?.isSome && inner.interface.one?.isSome) = true :=
      (Tag.isSome_forward tag inner.interface.one? _).symm.trans one
    exact ih (Bool.and_eq_true_iff.mp forwarded).2
  | _ => cases one

namespace Wrapped

variable {tag : Tag}

theorem offers_eq_has {inner : Ty} {s : Step W} {c : Capability} (tied : s.capability? = some c) :
    offers tag inner.interface s = (inner.interface.wrap tag).has c := by
  have moves : (inner.interface.moveMethod? tag).isSome = (inner.interface.wrap tag).has .step :=
    (Tag.isSome_forward _ _ _).trans (isSome_step?_wrap _ _).symm
  cases s with
  | look how => cases how <;> cases tied <;> rfl
  | move d moment =>
    cases tied
    cases moment with
    | after => exact moves
    | before =>
      have clonable (has : (inner.interface.wrap tag).has .step = true) :
          (inner.interface.wrap tag).clonable = true :=
        (Ty.wrapped tag inner).clonable_of_one ((Interface.has_step_iff _).mp has).1
      rw [offers, moves, Bool.and_eq_left_iff_imp]
      exact clonable
  | chain moves' =>
    cases tied
    exact moves
  | bareStep d =>
    cases tied
    exact (isSome_step?_wrap _ _).symm
  | landmark l => cases l <;> cases tied <;> rfl
  | isLandmark l => cases l <;> cases tied <;> rfl
  | _ => cases tied <;> rfl

theorem offers_of_nameless (nameless : tag.name? = none) (I : Interface V) {s : Step W}
    (forwarded : s.isForwarded = true) : offers tag I s = false := by
  have missing {α β : Type} (operation? : Option α) (lift : Text → α → β) :
      (tag.forward operation? lift).isSome = false := by
    rw [Tag.isSome_forward, nameless]
    rfl
  cases s with
  | move d moment =>
    cases moment with
    | after => exact missing _ _
    | before => exact Bool.and_eq_false_iff.mpr (.inl (missing _ _))
  | step d =>
    rw [offers, isSome_step?_wrap, nameless]
    rfl
  | bareStep d =>
    rw [offers, nameless]
    rfl
  | relate r rhs => cases r <;> exact missing _ _
  | landmark l => cases l <;> exact missing _ _
  | isLandmark l => cases l <;> exact missing _ _
  | look how => cases forwarded
  | map g => cases forwarded
  | wrap v => cases forwarded
  | assign v => cases forwarded
  | reset => cases forwarded
  | replace v => cases forwarded
  | take => cases forwarded
  | copyThenAssign v => cases forwarded
  | edit e => cases forwarded
  | measure m => cases forwarded
  | unavailable => cases forwarded
  | _ => exact missing _ _

theorem perform_of_unsupported {I : Interface V} {w : Wrapped tag V} {s : Step V}
    (refused : (perform I w s).1 = .unsupported) : (perform I w s).2 = w := by
  cases s with
  | chain moves =>
    simp only [perform] at refused ⊢
    split at refused
    · rfl
    · exact absurd refused (walk_ne_unsupported _ _ _)
  | _ => exact intact_perform I w _ rfl (by rw [refused]; rfl)

theorem run_getElem? (I : Interface V) (w : Wrapped tag V) (script : List (Step V)) (i : Nat) :
    (run I w script)[i]? = script[i]?.map fun s =>
      let outcome := perform I (final I w (script.take i)) s
      ⟨outcome.1, outcome.2.value⟩ := by
  induction script generalizing w i with
  | nil => rfl
  | cons s rest ih =>
    cases i with
    | zero => rfl
    | succ i => exact ih _ i

def finalList (I : Interface V) (ws : List (Wrapped tag V)) :
    List (ListStep V) → List (Wrapped tag V)
  | [] => ws
  | s :: rest => finalList I (performList I ws s).2 rest

theorem runList_getElem? (I : Interface V) (ws : List (Wrapped tag V))
    (script : List (ListStep V)) (i : Nat) :
    (runList I ws script)[i]? =
      script[i]?.map fun s => (performList I (finalList I ws (script.take i)) s).1 := by
  induction script generalizing ws i with
  | nil => rfl
  | cons s rest ih =>
    cases i with
    | zero => rfl
    | succ i => exact ih _ i

theorem finalList_take_succ (I : Interface V) (ws : List (Wrapped tag V))
    {script : List (ListStep V)} {i : Nat} {s : ListStep V} (here : script[i]? = some s) :
    finalList I ws (script.take (i + 1)) =
      (performList I (finalList I ws (script.take i)) s).2 := by
  induction script generalizing ws i with
  | nil => cases here
  | cons first rest ih =>
    cases i with
    | zero =>
      cases here
      rfl
    | succ i => exact ih _ here

theorem rearrange_of_unsupported {ws : List (Wrapped tag V)}
    {next? : Option (List (Wrapped tag V))} (refused : (rearrange ws next?).1 = .unsupported) :
    (rearrange ws next?).2 = ws := by
  cases next? with
  | none => rfl
  | some next => cases refused

theorem report_snd (ws : List (Wrapped tag V)) (answer? : Option (ListAnswer V)) :
    (report ws answer?).2 = ws := by
  cases answer? <;> rfl

theorem totalise_snd (ws : List (Wrapped tag V))
    (total? : Option (List (Wrapped tag V) → Except Fault (Wrapped tag V))) :
    (totalise ws total?).2 = ws := by
  unfold totalise
  split
  · rfl
  · split <;> rfl

theorem inscribe_snd (s : Spec) (ws : List (Wrapped tag V))
    (text? : Option (Spec → List (Wrapped tag V) → Text)) : (inscribe s ws text?).2 = ws := by
  unfold inscribe
  split
  · rfl
  · split <;> rfl

theorem performList_of_unsupported {I : Interface V} {ws : List (Wrapped tag V)} {s : ListStep V}
    (refused : (performList I ws s).1 = .unsupported) : (performList I ws s).2 = ws := by
  cases s with
  | sort => exact rearrange_of_unsupported refused
  | sortDescending => exact rearrange_of_unsupported refused
  | dedup => exact rearrange_of_unsupported refused
  | sum => exact totalise_snd ws _
  | sumRef => exact totalise_snd ws _
  | product => exact totalise_snd ws _
  | productRef => exact totalise_snd ws _
  | debug s => exact inscribe_snd s ws _
  | unavailable => rfl
  | _ => exact report_snd ws _

theorem offersList_eq_has (I : Interface V) {s : ListStep W} {c : Capability}
    (tied : s.capability? = some c) : offersList tag I s = (I.wrap tag).has c := by
  cases s <;> cases tied <;> rfl

theorem offersList_of_nameless (nameless : tag.name? = none) (I : Interface V) (s : ListStep W) :
    offersList tag I s = false := by
  cases s <;> simp [offersList, Interface.wrap, Interface.equalBare?,
    Interface.partialCompareBare?, digest?, Tag.forward, nameless]

theorem entry_follows_capabilities {inner : Ty} (w : Wrapped tag inner.Carrier)
    {script : List (Step inner.Carrier)} {i : Nat} {s : Step inner.Carrier}
    (here : script[i]? = some s) :
    ∃ e, (run inner.interface w script)[i]? = some e ∧
      (∀ c, s.capability? = some c →
        (e.reply = .unsupported ↔ c ∉ (Ty.wrapped tag inner).capabilities)) ∧
      (e.reply = .unsupported → e.state = (final inner.interface w (script.take i)).value) ∧
      (tag.name? = none → s.isForwarded = true → e.reply = .unsupported) := by
  have entry := run_getElem? inner.interface w script i
  rw [here] at entry
  refine ⟨_, entry, ?_, ?_, ?_⟩
  · intro c tied
    have decided : c ∈ (Ty.wrapped tag inner).capabilities ↔
        (inner.interface.wrap tag).has c = true := Interface.mem_capabilities_iff _ c
    rw [decided, perform_unsupported_iff, offers_eq_has tied, Bool.not_eq_true]
  · intro refused
    exact congrArg value (perform_of_unsupported refused)
  · intro nameless forwarded
    exact (perform_unsupported_iff _ _ _).mpr (offers_of_nameless nameless _ forwarded)

theorem reply_follows_capabilities {inner : Ty} (ws : List (Wrapped tag inner.Carrier))
    {script : List (ListStep inner.Carrier)} {i : Nat} {s : ListStep inner.Carrier}
    (here : script[i]? = some s) :
    ∃ reply, (runList inner.interface ws script)[i]? = some reply ∧
      (∀ c, s.capability? = some c →
        (reply = .unsupported ↔ c ∉ (Ty.wrapped tag inner).capabilities)) ∧
      (reply = .unsupported → finalList inner.interface ws (script.take (i + 1)) =
        finalList inner.interface ws (script.take i)) ∧
      (tag.name? = none → reply = .unsupported) := by
  have entry := runList_getElem? inner.interface ws script i
  rw [here] at entry
  refine ⟨_, entry, ?_, ?_, ?_⟩
  · intro c tied
    have decided : c ∈ (Ty.wrapped tag inner).capabilities ↔
        (inner.interface.wrap tag).has c = true := Interface.mem_capabilities_iff _ c
    rw [decided, performList_unsupported_iff, offersList_eq_has _ tied, Bool.not_eq_true]
  · intro refused
    rw [finalList_take_succ _ _ here]
    exact performList_of_unsupported refused
  · intro nameless
    exact (performList_unsupported_iff _ _ _).mpr (offersList_of_nameless nameless _ s)

/-- A step that is tied to a capability is answered `unsupported`, at every place of every script,
exactly when the wrapper does not list the capability, and then it leaves the state alone. A
wrapper without a name answers so to all forwarded steps, and its lists have no step at all. -/
theorem steps_follow_capabilities (tag : Tag) (inner : Ty) :
    (∀ (w : Wrapped tag inner.Carrier) (script : List (Step inner.Carrier)) i s,
      script[i]? = some s →
      ∃ e, (run inner.interface w script)[i]? = some e ∧
        (∀ c, s.capability? = some c →
          (e.reply = .unsupported ↔ c ∉ (Ty.wrapped tag inner).capabilities)) ∧
        (e.reply = .unsupported → e.state = (final inner.interface w (script.take i)).value) ∧
        (tag.name? = none → s.isForwarded = true → e.reply = .unsupported)) ∧
    ∀ (ws : List (Wrapped tag inner.Carrier)) (script : List (ListStep inner.Carrier)) i s,
      script[i]? = some s →
      ∃ reply, (runList inner.interface ws script)[i]? = some reply ∧
        (∀ c, s.capability? = some c →
          (reply = .unsupported ↔ c ∉ (Ty.wrapped tag inner).capabilities)) ∧
        (reply = .unsupported → finalList inner.interface ws (script.take (i + 1)) =
          finalList inner.interface ws (script.take i)) ∧
        (tag.name? = none → reply = .unsupported) :=
  ⟨fun w _ _ _ here => entry_follows_capabilities w here,
    fun ws _ _ _ here => reply_follows_capabilities ws here⟩

theorem steps_follow_capabilities_name :
    let text : Wrapped Catalogue.nameTag Text := ⟨"ab".toList⟩
    let bare : Wrapped Catalogue.untaggedTag (FixedInt .int32) := ⟨FixedInt.one .int32⟩
    let numbers : List (Wrapped (.named "Clamp") (FixedInt .int8)) :=
      [⟨FixedInt.greatest .int8⟩, ⟨FixedInt.least .int8⟩]
    (∃ e, (run Interface.text text [.hash, .look .copy])[1]? = some e ∧
        e.reply = .unsupported ∧ e.state = "ab".toList) ∧
      (∃ e, (run (Interface.integer .int32) bare [.take, .relate .eq .itself])[1]? = some e ∧
        e.reply = .unsupported) ∧
      ∃ reply, (runList (Interface.saturating .int8) numbers [.sort, .sum])[1]? = some reply ∧
        reply = .unsupported := by
  intro text bare numbers
  obtain ⟨scripts, -⟩ := steps_follow_capabilities Catalogue.nameTag .text
  obtain ⟨e, entry, tied, unmoved, -⟩ := scripts text [.hash, .look .copy] 1 (.look .copy) rfl
  have refused : e.reply = .unsupported := (tied .copy rfl).mpr (by decide)
  obtain ⟨scripts, -⟩ := steps_follow_capabilities Catalogue.untaggedTag (.int .int32)
  obtain ⟨e', entry', -, -, bare'⟩ :=
    scripts bare [.take, .relate .eq .itself] 1 (.relate .eq .itself) rfl
  obtain ⟨-, lists⟩ := steps_follow_capabilities (.named "Clamp") (.saturating .int8)
  obtain ⟨reply, entry'', tied'', -, -⟩ := lists numbers [.sort, .sum] 1 .sum rfl
  exact ⟨⟨e, entry, refused, unmoved refused⟩, ⟨e', entry', bare' rfl rfl⟩,
    ⟨reply, entry'', (tied'' .sum rfl).mpr (by decide)⟩⟩

end Wrapped

end Nominal
