import Nominal.Catalogue
import Nominal.Proofs.Collection.Mirror
import Nominal.Proofs.Script.Mirror

/-! Where a name comes in. A wrapper reads a text as the wrapped type does and puts its
name and the text to the cause of a refusal. Besides inspection this is the only step in
which a name has a part: the transcript of a script without inspection is one that knows
no name, with the name put to its refusals. A script over a list never tells the name. -/

namespace Nominal

variable {U V W : Type}

/-- A reply that knows no name, as a wrapper with a name gives it. -/
def Step.under (name : Text) : Step U → Reply W → Reply W
  | .parse input, .done (.rejected cause) => .done (.rejected (.named name input cause))
  | _, reply => reply

def underName (name : Text) (script : List (Step U)) (transcript : List (Entry W)) :
    List (Entry W) :=
  List.zipWith (fun s e => { e with reply := s.under name e.reply }) script transcript

theorem Step.under_of_showsNoName {s : Step U} (nameless : s.showsNoName = true) (name : Text)
    (reply : Reply W) : s.under name reply = reply := by
  cases s with
  | parse input => cases nameless
  | _ => rfl

theorem Step.showsNoName_or_parse {s : Step V} (shown : ∀ f, s ≠ .debug f) :
    s.showsNoName = true ∨ ∃ input, s = .parse input := by
  cases s with
  | debug f => exact absurd rfl (shown f)
  | parse input => exact .inr ⟨input, rfl⟩
  | _ => exact .inl rfl

theorem Rejection.message_named (name input : Text) (cause : Rejection) :
    (Rejection.named name input cause).message =
      "Invalid ".toList ++ name ++ (" '".toList ++ (input ++ ("': ".toList ++ cause.message))) := by
  show "Invalid ".toList ++ name ++ " '".toList ++ input ++ "': ".toList ++ cause.message = _
  simp only [List.append_assoc]

theorem Tag.isSome_forward_of {α β β' : Type} {tag tag' : Tag} {operation? : Option α}
    {lift : Text → α → β} {lift' : Text → α → β'}
    (named : tag.name?.isSome = true → tag'.name?.isSome = true)
    (has : (tag.forward operation? lift).isSome = true) :
    (tag'.forward operation? lift').isSome = true := by
  rw [Tag.isSome_forward, Bool.and_eq_true] at has ⊢
  exact ⟨named has.1, has.2⟩

namespace Wrapped

variable {tag tag' : Tag} {I : Interface V}

theorem offers_of_offers (named : tag.name?.isSome = true → tag'.name?.isSome = true)
    {s : Step W} (has : offers tag I s = true) : offers tag' I s = true := by
  cases s with
  | look how => cases how <;> exact has
  | map h => cases h <;> exact has
  | move d moment =>
    cases moment with
    | before =>
      simp only [offers, Bool.and_eq_true] at has ⊢
      exact ⟨Tag.isSome_forward_of named has.1, has.2⟩
    | after => exact Tag.isSome_forward_of named has
  | step d =>
    simp only [offers, isSome_step?_wrap, Bool.and_eq_true] at has ⊢
    exact ⟨named has.1, has.2⟩
  | bareStep d =>
    simp only [offers, Bool.and_eq_true] at has ⊢
    exact ⟨named has.1, has.2⟩
  | relate r rhs => cases r <;> exact Tag.isSome_forward_of named has
  | landmark l => cases l <;> exact Tag.isSome_forward_of named has
  | isLandmark l => cases l <;> exact Tag.isSome_forward_of named has
  | reset => simpa [offers, Interface.wrap] using has
  | take => simpa [offers, Interface.wrap] using has
  | wrap v => rfl
  | assign v => rfl
  | replace v => rfl
  | copyThenAssign v => exact has
  | edit e => exact has
  | measure m => exact has
  | unavailable => exact has
  | _ => exact Tag.isSome_forward_of named has

theorem offers_eq_offers (named : tag.name?.isSome = tag'.name?.isSome) (s : Step W) :
    offers tag I s = offers tag' I s := by
  rw [Bool.eq_iff_iff]
  constructor
  · exact offers_of_offers fun has => named ▸ has
  · exact offers_of_offers fun has => named ▸ has

theorem showsNoName_of_offers (nameless : tag.name? = none) {s : Step V}
    (has : offers tag I s = true) : s.showsNoName = true := by
  cases s with
  | debug f => simp [offers, Interface.wrap, Tag.isSome_forward, nameless] at has
  | parse input => simp [offers, Interface.wrap, Tag.isSome_forward, nameless] at has
  | _ => rfl

theorem isSome_digest? (J : Interface (Wrapped tag V)) :
    (digest? J).isSome = (J.equal?.isSome && (J.hash?.isSome && J.reflexive)) := by
  unfold digest?
  cases J.equal? <;> cases J.hash? <;> cases J.reflexive <;> rfl

theorem offersList_eq_offersList (named : tag.name?.isSome = tag'.name?.isSome)
    (s : ListStep W) : offersList tag I s = offersList tag' I s := by
  cases s <;> simp [offersList, Interface.wrap, Interface.equalBare?,
    Interface.partialCompareBare?, Tag.isSome_forward, isSome_digest?, named]

theorem perform_retag {s : Step V} (nameless : s.showsNoName = true)
    (offered : offers tag I s = offers tag' I s) (v : V) :
    perform I (⟨v⟩ : Wrapped tag' V) s =
      ((perform I (⟨v⟩ : Wrapped tag V) s).1, ⟨(perform I (⟨v⟩ : Wrapped tag V) s).2.value⟩) := by
  have along := perform_along (Interface.Mirrors.refl I) (⟨v⟩ : Wrapped tag V) s nameless offered
  rw [Step.along_id, outcomeAlong, Reply.along_id] at along
  exact along.symm

theorem run_retag {script : List (Step V)} (nameless : ∀ s ∈ script, s.showsNoName = true)
    (offered : ∀ s ∈ script, offers tag I s = offers tag' I s) (v : V) :
    run I (⟨v⟩ : Wrapped tag' V) script = run I (⟨v⟩ : Wrapped tag V) script := by
  induction script generalizing v with
  | nil => rfl
  | cons s rest ih =>
    have here := perform_retag (nameless s List.mem_cons_self) (offered s List.mem_cons_self) v
    have later := ih (fun s hs => nameless s (List.mem_cons_of_mem _ hs))
      (fun s hs => offered s (List.mem_cons_of_mem _ hs)) (perform I (⟨v⟩ : Wrapped tag V) s).2.value
    simp only [run, here, later]

theorem exists_perform_eq_under (I : Interface V) (v : V) {s : Step V}
    (shown : ∀ f, s ≠ .debug f) :
    ∃ reply next, ∀ (tag : Tag) (name : Text), tag.name? = some name →
      perform I (⟨v⟩ : Wrapped tag V) s = (s.under name reply, ⟨next⟩) := by
  rcases Step.showsNoName_or_parse shown with nameless | ⟨input, rfl⟩
  · -- Any tag with a name can stand for all of them.
    refine ⟨(perform I (⟨v⟩ : Wrapped Catalogue.anonTag V) s).1,
      (perform I (⟨v⟩ : Wrapped Catalogue.anonTag V) s).2.value, fun tag name named => ?_⟩
    rw [Step.under_of_showsNoName nameless]
    exact perform_retag nameless (offers_eq_offers (by rw [named]; rfl) s) v
  · cases has : I.read? with
    | none =>
      refine ⟨.unsupported, v, fun tag name named => ?_⟩
      rw [perform_parse_of_named named, has]
      rfl
    | some read =>
      cases found : read input with
      | ok u =>
        refine ⟨.done .accepted, u, fun tag name named => ?_⟩
        simp only [perform_parse_of_named named, has, found]
        rfl
      | error cause =>
        refine ⟨.done (.rejected cause), v, fun tag name named => ?_⟩
        simp only [perform_parse_of_named named, has, found]
        rfl

theorem exists_run_eq_underName (I : Interface V) (v : V) {script : List (Step V)}
    (shown : ∀ f, .debug f ∉ script) :
    ∃ transcript, ∀ (tag : Tag) (name : Text), tag.name? = some name →
      run I (⟨v⟩ : Wrapped tag V) script = underName name script transcript := by
  induction script generalizing v with
  | nil => exact ⟨[], fun _ _ _ => rfl⟩
  | cons s rest ih =>
    obtain ⟨reply, next, here⟩ := exists_perform_eq_under I v (s := s)
      fun f same => shown f (same ▸ List.mem_cons_self)
    obtain ⟨transcript, later⟩ := ih next fun f mem => shown f (List.mem_cons_of_mem _ mem)
    refine ⟨⟨reply, next⟩ :: transcript, fun tag name named => ?_⟩
    simp only [run, here tag name named, later tag name named]
    rfl

theorem runList_retag (named : tag.name?.isSome = tag'.name?.isSome) (vs : List V)
    {script : List (ListStep V)} (shown : ∀ f, .debug f ∉ script) :
    runList I (vs.map (Wrapped.mk : V → Wrapped tag' V)) script =
      runList I (vs.map (Wrapped.mk : V → Wrapped tag V)) script := by
  have along := runList_along (Interface.Mirrors.refl I) (Interface.MirrorsTotals.refl I)
    (vs.map (Wrapped.mk : V → Wrapped tag V)) script shown
    fun s _ => offersList_eq_offersList named s
  have replies (rs : List (ListReply V)) : rs.map (ListReply.along fun v => v) = rs := by
    rw [funext ListReply.along_id, List.map_id']
  have steps : script.map (ListStep.along fun v => v) = script := by
    rw [funext ListStep.along_id, List.map_id']
  rw [replies, steps, map_along_mk, List.map_id'] at along
  exact along.symm

/-- Two wrappers with names over one type cannot be told apart but by inspection and by the
name in a refusal, whose input and cause they share and whose wording differs in the name
alone. A wrapper without a name does what it can do as one with a name does it. -/
theorem name_invisible (I : Interface V) (tag tag' : Tag) (name name' : Text)
    (named : tag.name? = some name) (named' : tag'.name? = some name') :
    (∀ (v : V) (script : List (Step V)), (∀ f, .debug f ∉ script) → ∃ transcript,
        run I (⟨v⟩ : Wrapped tag V) script = underName name script transcript ∧
        run I (⟨v⟩ : Wrapped tag' V) script = underName name' script transcript) ∧
      (∀ input cause, ∃ before after,
        (Rejection.named name input cause).message = before ++ name ++ after ∧
        (Rejection.named name' input cause).message = before ++ name' ++ after) ∧
      (∀ bare : Tag, bare.name? = none → ∀ (v : V) (script : List (Step V)),
        (∀ s ∈ script, offers bare I s = true) →
        run I (⟨v⟩ : Wrapped bare V) script = run I (⟨v⟩ : Wrapped tag V) script) ∧
      ∀ (vs : List V) (script : List (ListStep V)), (∀ f, .debug f ∉ script) →
        runList I (vs.map (Wrapped.mk : V → Wrapped tag V)) script =
          runList I (vs.map (Wrapped.mk : V → Wrapped tag' V)) script := by
  refine ⟨fun v script shown => ?_, fun input cause => ?_, fun bare nameless v script has => ?_,
    fun vs script shown => ?_⟩
  · obtain ⟨transcript, under⟩ := exists_run_eq_underName I v shown
    exact ⟨transcript, under tag name named, under tag' name' named'⟩
  · exact ⟨_, _, Rejection.message_named name input cause, Rejection.message_named name' input cause⟩
  · symm
    refine run_retag (fun s mem => showsNoName_of_offers nameless (has s mem)) (fun s mem => ?_) v
    rw [has s mem]
    exact (offers_of_offers (fun _ => by rw [named]; rfl) (has s mem)).symm
  · exact runList_retag (by rw [named, named']; rfl) vs shown

theorem name_invisible_odd :
    let v : FixedInt .int32 := FixedInt.greatest .int32
    let odd := "Größe \"q\"\n\x7b\x7d".toList
    let script : List (Step (FixedInt .int32)) :=
      [.move .forward .after, .parse "12x".toList, .hash, .parse "-12".toList,
        .move .backward .before]
    Catalogue.meterTag.name? = some "Meter".toList ∧ Catalogue.oddTag.name? = some odd ∧
      (∃ transcript,
        run (Interface.integer .int32) (⟨v⟩ : Wrapped Catalogue.meterTag _) script =
          underName "Meter".toList script transcript ∧
        run (Interface.integer .int32) (⟨v⟩ : Wrapped Catalogue.oddTag _) script =
          underName odd script transcript) ∧
      (run (Interface.integer .int32) (⟨v⟩ : Wrapped Catalogue.oddTag _) script)[1]? =
        some ⟨.done (.rejected (.named odd "12x".toList (.integer .invalidDigit))), v⟩ ∧
      run (Interface.integer .int32) (⟨v⟩ : Wrapped Catalogue.untaggedTag _)
          [.map .double, .map .abs, .take] =
        run (Interface.integer .int32) (⟨v⟩ : Wrapped Catalogue.meterTag _)
          [.map .double, .map .abs, .take] := by
  intro v odd script
  obtain ⟨pair, -, bare, -⟩ := name_invisible (Interface.integer .int32) Catalogue.meterTag
    Catalogue.oddTag "Meter".toList odd rfl rfl
  refine ⟨rfl, rfl, pair v script ?_, rfl, bare Catalogue.untaggedTag rfl v _ ?_⟩
  · simp [script]
  · exact List.all_eq_true.mp rfl

end Wrapped

end Nominal
