import Nominal.Collection.Offer
import Nominal.Proofs.Collection.Along
import Nominal.Proofs.Interface.Mirror

/-! Scripts over lists on interfaces that act alike. Beside the operations on one value
the totals of a list have to match. Text for inspection shows names and is left out, as
it is for scripts over one wrapper. -/

namespace Nominal

variable {V W : Type}

def TotalsAlike (g : V → W) : Option (List V → Except Fault V) → Option (List W → Except Fault W) →
    Prop :=
  Alike fun total total' => ∀ vs, (total vs).map g = total' (vs.map g)

structure Interface.MirrorsTotals (g : V → W) (I : Interface V) (J : Interface W) : Prop where
  sum : TotalsAlike g I.sum? J.sum?
  sumRef : TotalsAlike g I.sumRef? J.sumRef?
  product : TotalsAlike g I.product? J.product?
  productRef : TotalsAlike g I.productRef? J.productRef?

namespace Wrapped

variable {tag tag' : Tag} {g : V → W}

theorem map_value_along (ws : List (Wrapped tag V)) :
    (ws.map (along tag' g)).map value = (ws.map value).map g := by
  rw [List.map_map, List.map_map]
  rfl

theorem option_value_along (w? : Option (Wrapped tag V)) :
    (w?.map value).map g = (w?.map (along tag' g)).map value := by
  cases w? <;> rfl

theorem map_along_mk (vs : List V) :
    (vs.map (Wrapped.mk : V → Wrapped tag V)).map (along tag' g) = (vs.map g).map Wrapped.mk := by
  rw [List.map_map, List.map_map]
  rfl

theorem gather_along {total : List V → Except Fault V} {total' : List W → Except Fault W}
    (agree : ∀ vs, (total vs).map g = total' (vs.map g)) (ws : List (Wrapped tag V)) :
    (gather total ws).map (along tag' g) = gather total' (ws.map (along tag' g)) := by
  unfold gather
  rw [map_value_along]
  exact map_mk_along (agree _)

theorem gather_value {total : List V → Except Fault V} {total' : List W → Except Fault W}
    (agree : ∀ vs, (total vs).map g = total' (vs.map g)) (ws : List (Wrapped tag V)) :
    (gather total ws).map (fun w => g w.value) = total' (ws.map fun w => g w.value) := by
  refine (map_value_map_mk (agree _)).trans ?_
  rw [List.map_map]
  rfl

end Wrapped

namespace Interface.MirrorsTotals

variable {g : V → W} {I : Interface V} {J : Interface W}

theorem wrap (m : I.MirrorsTotals g J) (tag tag' : Tag) :
    (I.wrap tag).MirrorsTotals (Wrapped.along tag' g) (J.wrap tag') where
  sum := m.sum.forward fun _ _ _ _ agree => Wrapped.gather_along agree
  sumRef := m.sumRef.forward fun _ _ _ _ agree => Wrapped.gather_along agree
  product := m.product.forward fun _ _ _ _ agree => Wrapped.gather_along agree
  productRef := m.productRef.forward fun _ _ _ _ agree => Wrapped.gather_along agree

theorem unwrap (m : I.MirrorsTotals g J) (tag : Tag) :
    (I.wrap tag).MirrorsTotals (fun w => g w.value) J where
  sum := m.sum.forward_left fun _ _ _ agree => Wrapped.gather_value agree
  sumRef := m.sumRef.forward_left fun _ _ _ agree => Wrapped.gather_value agree
  product := m.product.forward_left fun _ _ _ agree => Wrapped.gather_value agree
  productRef := m.productRef.forward_left fun _ _ _ agree => Wrapped.gather_value agree

theorem refl (I : Interface V) : I.MirrorsTotals (fun v => v) I := by
  have same (total? : Option (List V → Except Fault V)) :
      TotalsAlike (fun v => v) total? total? := by
    intro total has total' has'
    obtain rfl := Option.mem_unique has has'
    intro vs
    rw [List.map_id']
    cases total vs <;> rfl
  exact ⟨same _, same _, same _, same _⟩

end Interface.MirrorsTotals

namespace Wrapped

variable {tag : Tag} (tag' : Tag) (g : V → W)

def listOutcomeAlong (o : ListReply V × List (Wrapped tag V)) :
    ListReply W × List (Wrapped tag' W) :=
  (o.1.along g, o.2.map (along tag' g))

variable {tag' g}

theorem rearrange_along {α β : Type} {r : α → β → Prop} (ws : List (Wrapped tag V))
    {act? : Option α} {act'? : Option β} {next : α → List (Wrapped tag V)}
    {next' : β → List (Wrapped tag' W)} (present : act?.isSome = act'?.isSome)
    (alike : Alike r act? act'?)
    (agree : ∀ act act', r act act' → (next act).map (along tag' g) = next' act') :
    listOutcomeAlong tag' g (rearrange ws (act?.map next)) =
      rearrange (ws.map (along tag' g)) (act'?.map next') := by
  rcases alike.together present with ⟨rfl, rfl⟩ | ⟨act, act', rfl, rfl, related⟩
  · rfl
  · simp only [rearrange, Option.map_some, ← agree act act' related, listOutcomeAlong,
      ListReply.along, ListAnswer.along, map_value_along]

theorem report_along {α β : Type} {r : α → β → Prop} (ws : List (Wrapped tag V))
    {act? : Option α} {act'? : Option β} {answer : α → ListAnswer V} {answer' : β → ListAnswer W}
    (present : act?.isSome = act'?.isSome) (alike : Alike r act? act'?)
    (agree : ∀ act act', r act act' → (answer act).along g = answer' act') :
    listOutcomeAlong tag' g (report ws (act?.map answer)) =
      report (ws.map (along tag' g)) (act'?.map answer') := by
  rcases alike.together present with ⟨rfl, rfl⟩ | ⟨act, act', rfl, rfl, related⟩
  · rfl
  · simp only [report, Option.map_some, ← agree act act' related]
    rfl

theorem totalise_along (ws : List (Wrapped tag V))
    {total? : Option (List (Wrapped tag V) → Except Fault (Wrapped tag V))}
    {total'? : Option (List (Wrapped tag' W) → Except Fault (Wrapped tag' W))}
    (present : total?.isSome = total'?.isSome)
    (alike : TotalsAlike (along tag' g) total? total'?) :
    listOutcomeAlong tag' g (totalise ws total?) =
      totalise (ws.map (along tag' g)) total'? := by
  rcases alike.together present with ⟨rfl, rfl⟩ | ⟨total, total', rfl, rfl, agree⟩
  · rfl
  · simp only [totalise, ← agree ws]
    cases total ws <;> rfl

theorem mem_digest? {I : Interface (Wrapped tag V)} {d : Collection.Digest (Wrapped tag V)}
    (has : d ∈ digest? I) : d.equal ∈ I.equal? ∧ d.hash ∈ I.hash? := by
  unfold digest? at has
  split at has
  · rename_i equal hash hasEqual hasHash
    obtain ⟨-, same⟩ := Option.mem_ite_none_right.mp has
    cases same
    exact ⟨hasEqual, hasHash⟩
  · cases has

theorem digest?_alike {I : Interface (Wrapped tag V)} {J : Interface (Wrapped tag' W)}
    (m : I.Mirrors (along tag' g) J) :
    Alike (fun d d' => (∀ a b, d.equal a b = d'.equal (a.along tag' g) (b.along tag' g)) ∧
      ∀ w, d.hash w = d'.hash (w.along tag' g)) (digest? I) (digest? J) := by
  intro d has d' has'
  obtain ⟨hasEqual, hasHash⟩ := mem_digest? has
  obtain ⟨hasEqual', hasHash'⟩ := mem_digest? has'
  exact ⟨m.equal _ hasEqual _ hasEqual', m.hash _ hasHash _ hasHash'⟩

variable {I : Interface V} {J : Interface W}

theorem performList_along (m : I.Mirrors g J) (totals : I.MirrorsTotals g J)
    (ws : List (Wrapped tag V)) (s : ListStep V) (shown : ∀ f, s ≠ .debug f)
    (offered : offersList tag I s = offersList tag' J s) :
    listOutcomeAlong tag' g (performList I ws s) =
      performList J (ws.map (along tag' g)) (s.along g) := by
  have mw := m.wrap tag tag'
  have tw := totals.wrap tag tag'
  cases s with
  | sort =>
    exact rearrange_along ws offered mw.compare fun _ _ agree => Collection.sort_map agree ws
  | sortDescending =>
    exact rearrange_along ws offered mw.compare fun _ _ agree =>
      Collection.sortDescending_map agree ws
  | dedup =>
    exact rearrange_along ws offered mw.equal fun _ _ agree => Collection.dedup_map agree ws
  | orderedSet =>
    refine report_along ws offered mw.compare fun _ _ agree => ?_
    rw [← Collection.orderedSet_map agree, map_value_along]
    rfl
  | greatest =>
    refine report_along ws offered mw.compare fun _ _ agree => ?_
    rw [← Collection.greatest?_map agree]
    exact congrArg ListAnswer.value? (option_value_along _)
  | least =>
    refine report_along ws offered mw.compare fun _ _ agree => ?_
    rw [← Collection.least?_map agree]
    exact congrArg ListAnswer.value? (option_value_along _)
  | lexCompare key =>
    refine report_along ws offered mw.compare fun _ _ agree => ?_
    rw [ListAnswer.along, Collection.compareLex_map agree, map_along_mk]
  | hashSet key =>
    refine report_along ws offered (digest?_alike mw) fun _ _ agree => ?_
    rw [← Collection.Digest.ofList_map agree.1 agree.2]
    simp only [ListAnswer.along, List.length_map]
    rw [Collection.Digest.contains_map agree.1 agree.2]
    rfl
  | position key =>
    have alike : Alike (fun equal equal' => ∀ w v, equal w v = equal' (w.along tag' g) (g v))
        (I.equalBare? tag) (J.equalBare? tag') :=
      m.equal.forward fun _ _ _ _ agree w v => agree w.value v
    refine report_along ws offered alike fun _ _ agree => ?_
    simp only [ListAnswer.along, List.findIdx?_map, agree]
    rfl
  | occurrences key =>
    refine report_along ws offered mw.equal fun _ _ agree => ?_
    simp only [ListAnswer.along, List.countP_map, agree]
    rfl
  | isSorted =>
    refine report_along ws offered mw.partialCompare fun _ _ agree => ?_
    rw [ListAnswer.along, Collection.isSorted_map agree]
  | foldGreatest =>
    refine report_along ws offered mw.partialCompare fun _ _ agree => ?_
    rw [← Collection.foldGreatest?_map agree]
    exact congrArg ListAnswer.value? (option_value_along _)
  | foldLeast =>
    refine report_along ws offered mw.partialCompare fun _ _ agree => ?_
    rw [← Collection.foldLeast?_map agree]
    exact congrArg ListAnswer.value? (option_value_along _)
  | below key =>
    have alike : Alike (fun compare compare' => ∀ w v, compare w v = compare' (w.along tag' g) (g v))
        (I.partialCompareBare? tag) (J.partialCompareBare? tag') :=
      m.partialCompare.forward fun _ _ _ _ agree w v => agree w.value v
    refine report_along ws offered alike fun _ _ agree => ?_
    rw [List.filter_map, map_value_along]
    simp only [ListAnswer.along, agree]
    rfl
  | sum => exact totalise_along ws offered tw.sum
  | sumRef => exact totalise_along ws offered tw.sumRef
  | product => exact totalise_along ws offered tw.product
  | productRef => exact totalise_along ws offered tw.productRef
  | join =>
    refine report_along ws offered mw.display fun display display' agree => ?_
    have texts : ws.map (display Spec.plain) =
        (ws.map (along tag' g)).map (display' Spec.plain) := by
      rw [List.map_map]
      exact List.map_congr_left fun w _ => agree Spec.plain w
    rw [ListAnswer.along, joinDisplayed, texts]
    rfl
  | debug f => exact absurd rfl (shown f)
  | unavailable => rfl

theorem runList_along (m : I.Mirrors g J) (totals : I.MirrorsTotals g J)
    (ws : List (Wrapped tag V)) (script : List (ListStep V))
    (shown : ∀ f, .debug f ∉ script)
    (offered : ∀ s ∈ script, offersList tag I s = offersList tag' J s) :
    (runList I ws script).map (ListReply.along g) =
      runList J (ws.map (along tag' g)) (script.map (ListStep.along g)) := by
  induction script generalizing ws with
  | nil => rfl
  | cons s rest ih =>
    have here := performList_along m totals ws s
      (fun f same => shown f (same ▸ List.mem_cons_self)) (offered s List.mem_cons_self)
    have later := ih (performList I ws s).2 (fun f mem => shown f (List.mem_cons_of_mem _ mem))
      (fun s hs => offered s (List.mem_cons_of_mem _ hs))
    simp only [List.map_cons, runList, ← here, later]
    rfl

end Wrapped

end Nominal
