import Nominal.Proofs.Interface.Mirror
import Nominal.Proofs.Script.Along
import Nominal.Proofs.Script.Run

/-! Scripts on interfaces that act alike. A script gives matching transcripts on
wrappers over the two, whatever the tags are, as long as its steps are ones that both
wrappers have or both lack.

Text for inspection shows names and the rejection of a text carries them, so the two
steps that answer with these are left out here. -/

namespace Nominal

variable {V W : Type}

def Step.showsNoName : Step V → Bool
  | .debug _ | .parse _ => false
  | _ => true

namespace Wrapped

variable {tag : Tag} (tag' : Tag) (g : V → W)

def outcomeAlong (o : Outcome tag V) : Outcome tag' W := (o.1.along g, o.2.along tag' g)

variable {tag' g}

theorem isSome_map {α α' β β' : Type} {a? : Option α} {b? : Option β} {h : α → α'} {h' : β → β'}
    (present : a?.isSome = b?.isSome) : (a?.map h).isSome = (b?.map h').isSome := by
  rw [Option.isSome_map, Option.isSome_map, present]

theorem settle_along (w : Wrapped tag V) {next? : Option (Except Fault (Wrapped tag V))}
    {next'? : Option (Except Fault (Wrapped tag' W))} (present : next?.isSome = next'?.isSome)
    (alike : Alike (fun next next' => next.map (along tag' g) = next') next? next'?) :
    outcomeAlong tag' g (settle w next?) = settle (w.along tag' g) next'? := by
  rcases alike.together present with ⟨rfl, rfl⟩ | ⟨next, _, rfl, rfl, rfl⟩
  · rfl
  · cases next <;> rfl

theorem settleTotal_along (w : Wrapped tag V) {next? : Option (Wrapped tag V)}
    {next'? : Option (Wrapped tag' W)} (present : next?.isSome = next'?.isSome)
    (alike : Alike (fun next next' => along tag' g next = next') next? next'?) :
    outcomeAlong tag' g (settleTotal w next?) = settleTotal (w.along tag' g) next'? :=
  settle_along w (isSome_map present) (alike.map fun _ _ agree => congrArg Except.ok agree)

theorem inform_along (w : Wrapped tag V) {answer? : Option (Answer V)}
    {answer'? : Option (Answer W)} (present : answer?.isSome = answer'?.isSome)
    (alike : Alike (fun a a' => a.along g = a') answer? answer'?) :
    outcomeAlong tag' g (inform w answer?) = inform (w.along tag' g) answer'? := by
  rcases alike.together present with ⟨rfl, rfl⟩ | ⟨a, _, rfl, rfl, rfl⟩
  · rfl
  · rfl

theorem write_along (s : Spec) (w : Wrapped tag V) {text? : Option (Spec → Wrapped tag V → Text)}
    {text'? : Option (Spec → Wrapped tag' W → Text)} (present : text?.isSome = text'?.isSome)
    (alike : Alike (fun text text' => ∀ s w, text s w = text' s (w.along tag' g)) text? text'?) :
    outcomeAlong tag' g (write s w text?) = write s (w.along tag' g) text'? := by
  rcases alike.together present with ⟨rfl, rfl⟩ | ⟨text, text', rfl, rfl, agree⟩
  · rfl
  · simp only [write, agree]
    split <;> rfl

variable {I : Interface V} {J : Interface W}

theorem walk_along {move : Direction → Wrapped tag V → Except Fault (Wrapped tag V)}
    {move' : Direction → Wrapped tag' W → Except Fault (Wrapped tag' W)}
    (alike : ∀ d w, (move d w).map (along tag' g) = move' d (w.along tag' g))
    (moves : List Direction) (w : Wrapped tag V) :
    outcomeAlong tag' g (walk move moves w) = walk move' moves (w.along tag' g) := by
  induction moves generalizing w with
  | nil => rfl
  | cons d rest ih =>
    simp only [walk, ← alike d w]
    cases move d w with
    | ok next => exact ih next
    | error f => rfl

theorem moveBy_along (m : I.Mirrors g J) (w : Wrapped tag V) (d : Direction) (moment : Moment)
    (offered : offers tag I (.move d moment : Step V) = offers tag' J (.move d moment : Step V)) :
    outcomeAlong tag' g (moveBy I d moment w) = moveBy J d moment (w.along tag' g) := by
  have alike := m.moveMethod tag tag'
  unfold moveBy
  cases moment with
  | after =>
    rcases alike.together offered with ⟨has, has'⟩ | ⟨move, move', has, has', agree⟩
    · rw [has, has']
      rfl
    · simp only [has, has', ← agree d w]
      cases move d w <;> rfl
  | before =>
    -- The move and the copy are asked for together, and only that both sides have both is known.
    simp only [offers] at offered
    cases has : I.moveMethod? tag with
    | none =>
      cases has' : J.moveMethod? tag' with
      | none => rfl
      | some move' =>
        simp only [has, has', Option.isSome_none, Option.isSome_some, Bool.false_and,
          Bool.true_and] at offered
        simp only [← offered]
        rfl
    | some move =>
      cases has' : J.moveMethod? tag' with
      | none =>
        simp only [has, has', Option.isSome_none, Option.isSome_some, Bool.false_and,
          Bool.true_and] at offered
        simp only [offered]
        rfl
      | some move' =>
        simp only [has, has', Option.isSome_some, Bool.true_and] at offered
        simp only [← alike move has move' has' d w, offered]
        split
        · cases move d w <;> rfl
        · rfl

theorem extremum_along {compare : Wrapped tag V → Wrapped tag V → Ordering}
    {compare' : Wrapped tag' W → Wrapped tag' W → Ordering}
    (alike : ∀ a b, compare a b = compare' (a.along tag' g) (b.along tag' g))
    (a b : Wrapped tag V) (e : Extremum) :
    (extremum compare a b e).along tag' g =
      extremum compare' (a.along tag' g) (b.along tag' g) e := by
  cases e with
  | max => simp only [extremum, alike]; split <;> rfl
  | min => simp only [extremum, alike]; split <;> rfl

theorem clamp_along {compare : Wrapped tag V → Wrapped tag V → Ordering}
    {compare' : Wrapped tag' W → Wrapped tag' W → Ordering}
    (alike : ∀ a b, compare a b = compare' (a.along tag' g) (b.along tag' g))
    (low high w : Wrapped tag V) :
    (clamp compare low high w).map (along tag' g) =
      clamp compare' (low.along tag' g) (high.along tag' g) (w.along tag' g) := by
  simp only [clamp, alike]
  split
  · rfl
  · split
    · rfl
    · split <;> rfl

theorem mapping?_along (m : I.Mirrors g J) (h : Mapping V) :
    Alike (fun act act' => ∀ v, (act v).map g = act' (g v)) (mapping? I h)
      (mapping? J (h.along g)) := by
  cases h with
  | constant v =>
    intro act has act' has'
    cases has
    cases has'
    exact fun _ => rfl
  | identity =>
    intro act has act' has'
    cases has
    cases has'
    exact fun _ => rfl
  | square => exact (m.operate .mul).map fun _ _ agree v => agree v v
  | double => exact (m.operate .add).map fun _ _ agree v => agree v v
  | abs => exact m.abs

theorem landmark?_alike (m : I.Mirrors g J) (l : Landmark) :
    Alike (fun e e' => g e.value = e'.value ∧ ∀ v, e.test v = e'.test (g v)) (landmark? I l)
      (landmark? J l) := by
  cases l with
  | zero => exact m.zero
  | one => exact m.one

theorem equal?_along (m : I.Mirrors g J) (rhs : Operand V) (w : Wrapped tag V) :
    Alike (fun b b' => b = b') (equal? I rhs w) (equal? J (rhs.along g) (w.along tag' g)) := by
  simp only [equal?_eq, along, Operand.contribution_along]
  exact m.equal.forward fun _ _ _ _ agree => agree _ _

theorem partialCompare?_along (m : I.Mirrors g J) (rhs : Operand V) (w : Wrapped tag V) :
    Alike (fun o o' => o = o') (partialCompare? I rhs w)
      (partialCompare? J (rhs.along g) (w.along tag' g)) := by
  simp only [partialCompare?_eq, along, Operand.contribution_along]
  exact m.partialCompare.forward fun _ _ _ _ agree => agree _ _

theorem relate_along (m : I.Mirrors g J) (r : Relation) (rhs : Operand V) (w : Wrapped tag V) :
    Alike (fun b b' => b = b')
      (r.decide? (equal? I rhs w) (partialCompare? I rhs w))
      (r.decide? (equal? J (rhs.along g) (w.along tag' g))
        (partialCompare? J (rhs.along g) (w.along tag' g))) := by
  have equal : Alike (fun b b' => b = b') (equal? I rhs w)
    (equal? J (rhs.along g) (w.along tag' g)) := equal?_along m rhs w
  have order : Alike (fun o o' => o = o') (partialCompare? I rhs w)
    (partialCompare? J (rhs.along g) (w.along tag' g)) := partialCompare?_along m rhs w
  cases r with
  | eq => exact equal
  | ne => exact equal.map fun _ _ agree => congrArg not agree
  | _ => exact order.map fun _ _ agree => by rw [agree]

theorem look_along (w : Wrapped tag V) (how : Reading)
    (offered : offers tag I (.look how : Step V) = offers tag' J (.look how : Step V)) :
    outcomeAlong tag' g (look I w how) = look J (w.along tag' g) how := by
  cases how with
  | borrow => rfl
  | extract => rfl
  | clone =>
    simp only [offers] at offered
    simp only [look, offered]
    split <;> rfl
  | copy =>
    simp only [offers] at offered
    simp only [look, offered]
    split <;> rfl

theorem checked_along (m : I.Mirrors g J) (op : Operator) (rhs : Operand V) (w : Wrapped tag V)
    (offered : offers tag I (.checked op rhs) = offers tag' J (.checked op rhs)) :
    outcomeAlong tag' g (checked I op rhs w) = checked J op (rhs.along g) (w.along tag' g) := by
  have alike : Alike (fun method method' => ∀ w v, (method w v).map (along tag' g) =
      method' (w.along tag' g) (g v)) (I.checkedMethod? tag op) (J.checkedMethod? tag' op) := by
    refine (m.checked op).forward fun _ _ act act' agree w v => ?_
    simp only [along, ← agree w.value v, Option.map_map]
    rfl
  unfold checked
  rcases alike.together offered with ⟨has, has'⟩ | ⟨method, method', has, has', agree⟩
  · rw [has, has']
    rfl
  · have agree := agree w (rhs.contribution w.value)
    simp only [along, Operand.contribution_along] at agree ⊢
    simp only [has, has', ← agree]
    cases method w (rhs.contribution w.value) <;> rfl

theorem perform_along (m : I.Mirrors g J) (w : Wrapped tag V) (s : Step V)
    (nameless : s.showsNoName = true) (offered : offers tag I s = offers tag' J s) :
    outcomeAlong tag' g (perform I w s) = perform J (w.along tag' g) (s.along g) := by
  have mw := m.wrap tag tag'
  cases s with
  | wrap v => rfl
  | assign v => rfl
  | reset => exact settleTotal_along w offered mw.initial
  | look how => exact look_along w how offered
  | replace v => rfl
  | take =>
    simp only [perform, Step.along]
    rcases mw.initial.together offered with ⟨has, has'⟩ | ⟨next, _, has, has', rfl⟩
    · rw [has, has']
      rfl
    · rw [has, has']
      rfl
  | copyThenAssign v =>
    simp only [offers] at offered
    simp only [perform, Step.along, offered]
    split <;> rfl
  | map h =>
    refine settle_along w ?_ ((mapping?_along m h).map fun _ _ agree => map_mk_along (agree w.value))
    cases h with
    | constant v => rfl
    | identity => rfl
    | _ => simpa [offers, mapping?, Mapping.along] using offered
  | edit e =>
    refine settleTotal_along w (isSome_map offered) (m.text.map fun _ _ agree => ?_)
    simp only [along, map, agree.1, agree.2]
  | measure k =>
    refine inform_along w (isSome_map offered) (m.text.map fun _ _ agree => ?_)
    simp only [Answer.along, along, agree.1]
  | operate op rhs =>
    simp only [perform, Step.along, operate_eq]
    refine settle_along w ?_ ((m.operate op).forward fun _ _ _ _ agree => map_mk_along ?_)
    · simpa [offers, Interface.wrap, Tag.isSome_forward] using offered
    · simp only [along, Operand.contribution_along, agree]
  | compound op rhs =>
    simp only [perform, Step.along, compound_eq]
    refine settle_along w ?_ ((m.assign op).forward fun _ _ _ _ agree => map_mk_along ?_)
    · simpa [offers, Interface.wrap, Tag.isSome_forward] using offered
    · simp only [along, Operand.contribution_along, agree]
  | negate =>
    exact settle_along w (isSome_map offered) (mw.neg.map fun _ _ agree => agree w)
  | move d moment => exact moveBy_along m w d moment offered
  | chain moves =>
    simp only [perform, Step.along]
    rcases (m.moveMethod tag tag').together offered with
      ⟨has, has'⟩ | ⟨move, move', has, has', agree⟩
    · rw [has, has']
      rfl
    · rw [has, has']
      exact walk_along agree moves w
  | step d =>
    exact settle_along w (isSome_map offered) (mw.step.map fun _ _ agree => agree d w)
  | bareStep d =>
    refine settle_along w ?_ (m.step.forward fun _ _ _ _ agree => map_mk_along (agree d w.value))
    simpa [offers, Tag.isSome_forward] using offered
  | relate r rhs =>
    refine inform_along w ?_ ((relate_along m r rhs w).map fun _ _ agree => congrArg Answer.truth agree)
    cases r <;> simpa [offers, Relation.decide?] using offered
  | partialCompare rhs =>
    refine inform_along w (by simpa [offers] using offered)
      ((partialCompare?_along m rhs w).map fun _ _ agree => congrArg Answer.ordering agree)
  | compare v =>
    refine inform_along w (isSome_map offered) (mw.compare.map fun _ _ agree => ?_)
    simp only [Answer.along, agree]
    rfl
  | extremum e v =>
    exact settleTotal_along w (isSome_map offered)
      (mw.compare.map fun _ _ agree => extremum_along agree w ⟨v⟩ e)
  | clamp low high =>
    exact settle_along w (isSome_map offered)
      (mw.compare.map fun _ _ agree => clamp_along agree ⟨low⟩ ⟨high⟩ w)
  | hash =>
    exact inform_along w (isSome_map offered)
      (mw.hash.map fun _ _ agree => congrArg Answer.bytes (agree w))
  | checked op rhs => exact checked_along m op rhs w offered
  | saturating op rhs =>
    have alike : Alike (fun method method' => ∀ w v, (method w v).along tag' g =
        method' (w.along tag' g) (g v)) (I.saturatingMethod? tag op) (J.saturatingMethod? tag' op) :=
      (m.saturating op).forward fun _ _ _ _ agree w v => congrArg Wrapped.mk (agree w.value v)
    refine settleTotal_along w (isSome_map offered) (alike.map fun _ _ agree => ?_)
    exact (agree w _).trans (by simp only [along, Operand.contribution_along])
  | landmark l =>
    exact settleTotal_along w (isSome_map offered)
      ((landmark?_alike mw l).map fun _ _ agree => agree.1)
  | isLandmark l =>
    exact inform_along w (isSome_map offered)
      ((landmark?_alike mw l).map fun _ _ agree => congrArg Answer.truth (agree.2 w))
  | bound b =>
    refine settleTotal_along w (isSome_map offered) (mw.bounds.map fun _ _ agree => ?_)
    cases b with
    | least => exact agree.1
    | greatest => exact agree.2
  | display s => exact write_along s w offered mw.display
  | debug s => cases nameless
  | parse input => cases nameless
  | unavailable => rfl

theorem run_along (m : I.Mirrors g J) (w : Wrapped tag V) (script : List (Step V))
    (nameless : ∀ s ∈ script, s.showsNoName = true)
    (offered : ∀ s ∈ script, offers tag I s = offers tag' J s) :
    (run I w script).map (Entry.along g) = run J (w.along tag' g) (script.map (Step.along g)) := by
  induction script generalizing w with
  | nil => rfl
  | cons s rest ih =>
    have here := perform_along m w s (nameless s List.mem_cons_self) (offered s List.mem_cons_self)
    have later := ih (perform I w s).2 (fun s hs => nameless s (List.mem_cons_of_mem _ hs))
      (fun s hs => offered s (List.mem_cons_of_mem _ hs))
    simp only [List.map_cons, run, ← here, later]
    rfl

end Wrapped

end Nominal
