import Nominal.Proofs.Naming
import Nominal.Proofs.Nest

/-! A wrapper around a wrapper. It does what the wrapper in it does, step by step and with
the same answers, although every operation reaches the value through one more tag. Only
the refusal of a text tells them apart: outside it is put under a second name, and the
refusal that the inner wrapper gives is its cause. -/

namespace Nominal.Wrapped

variable {V W : Type} {outer inner : Tag} {I : Interface V}

theorem perform_enclosed {name : Text} (named : outer.name? = some name)
    (w : Wrapped outer (Wrapped inner V)) {s : Step (Wrapped inner V)}
    (shown : ∀ f, s ≠ .debug f) (offered : offers outer (I.wrap inner) s = offers inner I s) :
    outcomeAlong inner value (perform (I.wrap inner) w s) =
      (s.under name (perform I w.value (s.along value)).1,
        (perform I w.value (s.along value)).2) := by
  rcases Step.showsNoName_or_parse shown with nameless | ⟨input, rfl⟩
  · rw [Step.under_of_showsNoName nameless]
    exact perform_along ((Interface.Mirrors.refl I).unwrap inner) w s nameless offered
  · rw [perform_parse_of_named named]
    simp only [Step.along, perform, parse]
    cases (I.wrap inner).read? with
    | none => rfl
    | some read =>
      cases found : read input with
      | ok u =>
        simp only [found]
        rfl
      | error cause =>
        simp only [found]
        rfl

theorem run_enclosed {name : Text} (named : outer.name? = some name)
    (w : Wrapped outer (Wrapped inner V)) (script : List (Step (Wrapped inner V)))
    (shown : ∀ f, .debug f ∉ script)
    (offered : ∀ s ∈ script, offers outer (I.wrap inner) s = offers inner I s) :
    (run (I.wrap inner) w script).map (Entry.along value) =
      underName name script (run I w.value (script.map (Step.along value))) := by
  -- After every step the inner wrapper is the value of the outer one.
  induction script generalizing w with
  | nil => rfl
  | cons s rest ih =>
    have here := perform_enclosed named w (fun f same => shown f (same ▸ List.mem_cons_self))
      (offered s List.mem_cons_self)
    obtain ⟨reply, state⟩ := Prod.mk.inj here
    have state : (perform (I.wrap inner) w s).2.value = (perform I w.value (s.along value)).2 := state
    have later := ih (perform (I.wrap inner) w s).2
      (fun f mem => shown f (List.mem_cons_of_mem _ mem))
      fun s hs => offered s (List.mem_cons_of_mem _ hs)
    rw [state] at later
    simp only [List.map_cons, run, underName, List.zipWith_cons_cons, Entry.along, reply, later, state]

theorem offersList_wrap (tag : Tag) (I : Interface V) (named : inner.name?.isSome = true)
    (s : ListStep W) : offersList tag (I.wrap inner) s = offersList tag I s := by
  cases s <;> simp [offersList, Interface.wrap, Interface.equalBare?,
    Interface.partialCompareBare?, Tag.isSome_forward, isSome_digest?, named]

theorem runList_enclosed (named : outer.name?.isSome = true) (namedInner : inner.name?.isSome = true)
    (ws : List (Wrapped outer (Wrapped inner V))) {script : List (ListStep (Wrapped inner V))}
    (shown : ∀ f, .debug f ∉ script) :
    (runList (I.wrap inner) ws script).map (ListReply.along value) =
      runList I (ws.map value) (script.map (ListStep.along value)) := by
  refine runList_along ((Interface.Mirrors.refl I).unwrap inner)
    ((Interface.MirrorsTotals.refl I).unwrap inner) ws script shown fun s _ => ?_
  rw [offersList_wrap outer I namedInner]
  exact offersList_eq_offersList (named.trans namedInner.symm) s

/-- The steps that only one of the two may have are methods of the wrapped type itself, so moves,
digests and totals are never among those that the hypotheses leave out. -/
theorem nested_simulates (I : Interface V) (outer inner : Tag) (name : Text)
    (named : outer.name? = some name) (namedInner : inner.name?.isSome = true) :
    (∀ (w : Wrapped outer (Wrapped inner V)) (script : List (Step (Wrapped inner V))),
        (∀ f, .debug f ∉ script) →
        (∀ s ∈ script, offers outer (I.wrap inner) s = offers inner I s) →
        (run (I.wrap inner) w script).map (Entry.along value) =
          underName name script (run I w.value (script.map (Step.along value)))) ∧
      (∀ input cause, (Rejection.named name input cause).source? = some cause) ∧
      (∀ s : Step (Wrapped inner V), s.reachesCore = true →
        offers outer (I.wrap inner) s = offers inner I s) ∧
      ∀ (ws : List (Wrapped outer (Wrapped inner V))) (script : List (ListStep (Wrapped inner V))),
        (∀ f, .debug f ∉ script) →
        (runList (I.wrap inner) ws script).map (ListReply.along value) =
          runList I (ws.map value) (script.map (ListStep.along value)) := by
  have named' : outer.name?.isSome = true := by rw [named]; rfl
  refine ⟨run_enclosed named, fun _ _ => rfl, fun s reaches => ?_,
    fun ws script shown => runList_enclosed named' namedInner ws shown⟩
  rw [offers_wrap outer I namedInner s reaches]
  exact offers_eq_offers (named'.trans namedInner.symm) s

theorem nested_simulates_outer :
    let w : Wrapped Catalogue.outerTag (Wrapped Catalogue.meterTag (FixedInt .int32)) :=
      ⟨⟨FixedInt.greatest .int32⟩⟩
    let script : List (Step (Wrapped Catalogue.meterTag (FixedInt .int32))) :=
      [.move .forward .after, .parse "x".toList, .move .backward .before, .hash, .step .forward]
    Catalogue.outerTag.name? = some "Outer".toList ∧ Catalogue.meterTag.name?.isSome = true ∧
      (run Catalogue.meter.interface w script).map (Entry.along value) =
        underName "Outer".toList script
          (run (Interface.integer .int32) w.value (script.map (Step.along value))) ∧
      (run Catalogue.meter.interface w script)[1]? =
        some ⟨.done (.rejected (.named "Outer".toList "x".toList
          (.named "Meter".toList "x".toList (.integer .invalidDigit)))), w.value⟩ ∧
      (runList Catalogue.meter.interface [w, w] [.product, .dedup, .sum]).map
          (ListReply.along value) =
        runList (Interface.integer .int32) [w.value, w.value] [.product, .dedup, .sum] := by
  intro w script
  obtain ⟨runs, -, reaches, lists⟩ := nested_simulates (Interface.integer .int32)
    Catalogue.outerTag Catalogue.meterTag "Outer".toList rfl rfl
  refine ⟨rfl, rfl, runs w script (by simp [script]) fun s mem => reaches s ?_, rfl,
    lists [w, w] [.product, .dedup, .sum] (by simp)⟩
  exact List.all_eq_true.mp (show script.all Step.reachesCore = true from rfl) s mem

end Nominal.Wrapped
