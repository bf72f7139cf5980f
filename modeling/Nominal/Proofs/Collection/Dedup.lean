import Mathlib.Data.List.Destutter
import Mathlib.Data.List.SplitBy
import Nominal.Catalogue
import Nominal.Collection.Offer
import Nominal.Operand
import Nominal.Proofs.Interface.Equality
import Nominal.Proofs.Script.Run

/-! Lists without equal neighbours. A list falls into stretches of equal items, each as long as
it can be, and of every stretch the first item is kept. An item is compared with the one that
was kept last and not with its neighbour, so this rests on equality being transitive; that
some item may differ from itself does not matter, for then it is a stretch by itself. From
the other end the same stretches are found, and other items of them are kept. -/

namespace Nominal

variable {V K : Type}

namespace Collection

/-- The division of a list into its longest stretches of equal items. -/
structure Stretches (equal : V → V → Bool) (vs : List V) (stretches : List (List V)) : Prop where
  joined : stretches.flatten = vs
  nonempty : [] ∉ stretches
  alike : ∀ s ∈ stretches, s.Pairwise fun a b => equal a b = true
  apart : stretches.IsChain fun s t => ∀ a ∈ s.getLast?, ∀ b ∈ t.head?, equal a b = false

section Equality

variable {equal : V → V → Bool}

theorem cons_dedupAfter (kept : V) (vs : List V) :
    kept :: dedupAfter equal kept vs = vs.destutter' (fun a b => equal b a = false) kept := by
  induction vs generalizing kept with
  | nil => rfl
  | cons v rest ih =>
    rw [dedupAfter, List.destutter'_cons, ← ih kept, ← ih v]
    cases equal v kept <;> rfl

theorem dedup_eq_destutter (vs : List V) :
    dedup equal vs = vs.destutter fun a b => equal b a = false := by
  cases vs with
  | nil => rfl
  | cons v rest => exact cons_dedupAfter v rest

theorem dedup_sublist (vs : List V) : (dedup equal vs).Sublist vs := by
  rw [dedup_eq_destutter]
  exact List.destutter_sublist _ vs

theorem dedup_dedup (vs : List V) : dedup equal (dedup equal vs) = dedup equal vs := by
  simp only [dedup_eq_destutter, List.destutter_idem]

theorem mem_cons_dedupAfter_iff (decides : ∀ a b, equal a b = true ↔ a = b) (kept w : V)
    (vs : List V) : w ∈ kept :: dedupAfter equal kept vs ↔ w ∈ kept :: vs := by
  induction vs generalizing kept with
  | nil => rfl
  | cons v rest ih =>
    rw [dedupAfter]
    split
    · rename_i same
      rw [(decides v kept).mp same, ih, List.mem_cons, List.mem_cons, List.mem_cons, or_self_left]
    · rw [List.mem_cons, ih, List.mem_cons, List.mem_cons, List.mem_cons]

theorem mem_dedup_iff (decides : ∀ a b, equal a b = true ↔ a = b) (w : V) (vs : List V) :
    w ∈ dedup equal vs ↔ w ∈ vs := by
  cases vs with
  | nil => rfl
  | cons v rest => exact mem_cons_dedupAfter_iff decides v w rest

theorem dedupAfter_append {kept : V} {same : List V} (alike : ∀ v ∈ same, equal v kept = true)
    (rest : List V) : dedupAfter equal kept (same ++ rest) = dedupAfter equal kept rest := by
  induction same with
  | nil => rfl
  | cons v same ih =>
    rw [List.forall_mem_cons] at alike
    rw [List.cons_append, dedupAfter, if_pos alike.1, ih alike.2]

theorem dedupAfter_eq_dedup {kept : V} {vs : List V}
    (apart : ∀ v ∈ vs.head?, equal v kept = false) :
    dedupAfter equal kept vs = dedup equal vs := by
  cases vs with
  | nil => rfl
  | cons v rest => rw [dedupAfter, apart v rfl, if_neg Bool.false_ne_true, dedup]

variable (partially : PartialEquality equal)
include partially

theorem isChain_dedup (vs : List V) : (dedup equal vs).IsChain fun a b => equal a b = false := by
  have chain := List.isChain_destutter (fun a b => equal b a = false) vs
  rw [← dedup_eq_destutter] at chain
  simpa only [partially.comm] using chain

theorem filter_dedupAfter (kept : V) (vs : List V) :
    (dedupAfter equal kept vs).filter (fun v => !equal v v) = vs.filter fun v => !equal v v := by
  induction vs generalizing kept with
  | nil => rfl
  | cons v rest ih =>
    rw [dedupAfter]
    split
    · rename_i same
      -- What equals something else equals itself.
      have itself : equal v v = true := partially.trans same (partially.symm same)
      rw [ih, List.filter_cons_of_neg (by simp [itself])]
    · rw [List.filter_cons, List.filter_cons, ih]

theorem filter_dedup (vs : List V) :
    (dedup equal vs).filter (fun v => !equal v v) = vs.filter fun v => !equal v v := by
  cases vs with
  | nil => rfl
  | cons v rest => rw [dedup, List.filter_cons, List.filter_cons, filter_dedupAfter partially]

theorem stretches_splitBy (vs : List V) : Stretches equal vs (vs.splitBy equal) where
  joined := List.flatten_splitBy equal vs
  nonempty := List.nil_notMem_splitBy equal vs
  alike s mem := by
    have : Trans (fun a b => equal a b = true) (fun a b => equal a b = true)
      fun a b => equal a b = true := ⟨partially.trans⟩
    exact (List.isChain_of_mem_splitBy mem).pairwise
  apart := by
    refine (List.isChain_getLast_head_splitBy equal vs).imp fun s t => ?_
    rintro ⟨hs, ht, differ⟩ a ha b hb
    rw [List.getLast?_eq_some_getLast hs] at ha
    rw [List.head?_eq_some_head ht] at hb
    cases ha
    cases hb
    exact differ

namespace Stretches

variable {vs : List V} {stretches : List (List V)}

omit partially in
theorem eq_or_equal_last {first last : V} {rest : List V} (mem : first :: rest ∈ stretches)
    (divided : Stretches equal vs stretches) (ends : last ∈ (first :: rest).getLast?) :
    first = last ∨ equal first last = true := by
  rcases List.mem_cons.mp (List.mem_of_getLast? ends) with rfl | later
  · exact .inl rfl
  · exact .inr (List.rel_of_pairwise_cons (divided.alike _ mem) later)

theorem differs {first : V} {rest : List V}
    (divided : Stretches equal vs ((first :: rest) :: stretches)) :
    ∀ v ∈ stretches.flatten.head?, equal v first = false := by
  intro v starts
  cases stretches with
  | nil => cases starts
  | cons t stretches =>
    cases t with
    | nil => exact absurd (List.mem_cons_of_mem _ List.mem_cons_self) divided.nonempty
    | cons next more =>
      obtain rfl : next = v := Option.some.inj starts
      obtain ⟨last, ends⟩ := Option.isSome_iff_exists.mp
        (List.getLast?_isSome.mpr (List.cons_ne_nil first rest))
      have differ := (List.isChain_cons_cons.mp divided.apart).1 last ends next rfl
      rw [Bool.eq_false_iff] at differ ⊢
      intro same
      rcases divided.eq_or_equal_last List.mem_cons_self ends with rfl | alike
      · exact differ (partially.symm same)
      · exact differ (partially.symm (partially.trans same alike))

omit partially in
theorem of_cons {s : List V} (divided : Stretches equal vs (s :: stretches)) :
    Stretches equal stretches.flatten stretches where
  joined := rfl
  nonempty empty := divided.nonempty (List.mem_cons_of_mem s empty)
  alike t mem := divided.alike t (List.mem_cons_of_mem s mem)
  apart := divided.apart.tail

theorem dedup_eq (divided : Stretches equal vs stretches) :
    dedup equal vs = stretches.filterMap List.head? := by
  induction stretches generalizing vs with
  | nil =>
    rw [← divided.joined]
    rfl
  | cons s stretches ih =>
    cases s with
    | nil => exact absurd List.mem_cons_self divided.nonempty
    | cons first rest =>
      have alike : ∀ v ∈ rest, equal v first = true := fun v mem =>
        partially.symm (List.rel_of_pairwise_cons (divided.alike _ List.mem_cons_self) mem)
      rw [← divided.joined, List.flatten_cons, List.cons_append, dedup, dedupAfter_append alike,
        dedupAfter_eq_dedup (divided.differs partially), ih divided.of_cons]
      rfl

theorem reverse (divided : Stretches equal vs stretches) :
    Stretches equal vs.reverse (stretches.map List.reverse).reverse where
  joined := by rw [← List.reverse_flatten, divided.joined]
  nonempty := by
    rw [List.mem_reverse, List.mem_map]
    rintro ⟨s, mem, empty⟩
    rw [List.reverse_eq_nil_iff] at empty
    exact divided.nonempty (empty ▸ mem)
  alike s mem := by
    rw [List.mem_reverse, List.mem_map] at mem
    obtain ⟨s, mem, rfl⟩ := mem
    exact List.pairwise_reverse.mpr ((divided.alike s mem).imp partially.symm)
  apart := by
    rw [List.isChain_reverse, List.isChain_map]
    refine divided.apart.imp fun s t differ a ha b hb => ?_
    rw [List.getLast?_reverse] at ha
    rw [List.head?_reverse] at hb
    rw [partially.comm]
    exact differ b hb a ha

end Stretches

/-- Seen from the other end, other items of the same stretches are kept. -/
theorem map_dedup_reverse {key : V → K} (agree : ∀ a b, equal a b = true → key a = key b)
    (vs : List V) :
    (dedup equal vs.reverse).map key = ((dedup equal vs).map key).reverse := by
  have divided := stretches_splitBy partially vs
  have ends : ∀ s ∈ vs.splitBy equal, s.reverse.head?.map key = s.head?.map key := by
    intro s mem
    cases s with
    | nil => rfl
    | cons first rest =>
      obtain ⟨last, ends⟩ := Option.isSome_iff_exists.mp
        (List.getLast?_isSome.mpr (List.cons_ne_nil first rest))
      rw [List.head?_reverse, ends, List.head?_cons, Option.map_some, Option.map_some]
      rcases divided.eq_or_equal_last mem ends with rfl | same
      · rfl
      · rw [agree _ _ same]
  rw [(divided.reverse partially).dedup_eq partially, divided.dedup_eq partially,
    List.filterMap_reverse, List.filterMap_map, List.map_reverse, List.map_filterMap,
    List.map_filterMap]
  exact congrArg List.reverse (List.filterMap_congr ends)

end Equality

end Collection

namespace Wrapped

variable {tag : Tag}

/-- Lists lose the items that equal one before them with only equal ones between. Values count
as equal when they are the same without the signs of their zeros, and numbers throughout. -/
structure DedupsBy (I : Interface V) (unsigned : V → V) (nan : V → Bool)
    (equal : Wrapped tag V → Wrapped tag V → Bool)
    (deduped : List (Wrapped tag V) → List (Wrapped tag V)) : Prop where
  relation : ∀ w rhs, perform I w (.relate .eq rhs) =
    answer (.truth (equal w ⟨rhs.contribution w.value⟩)) w
  equal_iff : ∀ a b, equal a b = true ↔ unsigned a.value = unsigned b.value ∧ nan a.value = false
  dedup : ∀ ws, performList I ws .dedup = (.done (.values ((deduped ws).map value)), deduped ws)
  sublist : ∀ ws, (deduped ws).Sublist ws
  divided : ∀ ws, ∃ stretches, Collection.Stretches equal ws stretches
  heads : ∀ ws stretches, Collection.Stretches equal ws stretches →
    deduped ws = stretches.filterMap List.head?
  dropped : ∀ ws stretches, Collection.Stretches equal ws stretches →
    ∀ kept rest, kept :: rest ∈ stretches → ∀ w ∈ rest, equal w kept = true
  apart : ∀ ws, (deduped ws).IsChain fun a b => equal a b = false
  nans : ∀ ws, (deduped ws).filter (fun w => nan w.value) = ws.filter fun w => nan w.value
  dedupAgain : ∀ ws, performList I (deduped ws) .dedup =
    (.done (.values ((deduped ws).map value)), deduped ws)
  reverse : ∀ ws, (deduped ws.reverse).map (fun w => unsigned w.value) =
    ((deduped ws).map fun w => unsigned w.value).reverse

theorem dedupsBy {I : Interface V} {unsigned : V → V} {nan : V → Bool} {bare : V → V → Bool}
    {name : Text} (named : tag.name? = some name) (has : I.equal? = some bare)
    (partially : PartialEquality fun a b : Wrapped tag V => bare a.value b.value)
    (agrees : ∀ a b, bare a b = true ↔ unsigned a = unsigned b ∧ nan a = false) :
    DedupsBy I unsigned nan (fun a b : Wrapped tag V => bare a.value b.value)
      (Collection.dedup fun a b => bare a.value b.value) := by
  have compares := Interface.equal?_wrap named has
  have dedups (ws : List (Wrapped tag V)) : performList I ws .dedup =
      (.done (.values ((Collection.dedup (fun a b => bare a.value b.value) ws).map value)),
        Collection.dedup (fun a b => bare a.value b.value) ws) := by
    simp only [performList, compares, Option.map_some, rearrange]
  have differs (w : Wrapped tag V) : (!bare w.value w.value) = nan w.value := by
    cases found : nan w.value with
    | false => rw [(agrees _ _).mpr ⟨rfl, found⟩, Bool.not_true]
    | true =>
      have itself : bare w.value w.value ≠ true := fun same =>
        Bool.false_ne_true (((agrees _ _).mp same).2.symm.trans found)
      rw [Bool.eq_false_iff.mpr itself, Bool.not_false]
  refine ⟨fun w rhs => ?_, fun a b => agrees a.value b.value, dedups, Collection.dedup_sublist,
    fun ws => ⟨_, Collection.stretches_splitBy partially ws⟩,
    fun ws stretches divided => divided.dedup_eq partially, ?_,
    Collection.isChain_dedup partially, fun ws => ?_, fun ws => ?_,
    Collection.map_dedup_reverse partially fun a b same => ((agrees _ _).mp same).1⟩
  · simp only [perform, Relation.decide?, equal?_eq, has, Tag.forward_named named]
    rfl
  · intro ws stretches divided kept rest mem w later
    exact partially.symm (List.rel_of_pairwise_cons (divided.alike _ mem) later)
  · have kept := Collection.filter_dedup partially ws
    simpa only [differs] using kept
  · rw [dedups, Collection.dedup_dedup]

/-- Of each stretch of equal items the first is kept and no other, and what is not a number is
kept wherever it stands. From the other end the same values are kept, up to the signs of zeros. -/
theorem dedups_by_stretches (tag : Tag) (inner : Ty)
    (compares : (Ty.wrapped tag inner).supports .equality = true) :
    (∃ (equal : Wrapped tag inner.Carrier → Wrapped tag inner.Carrier → Bool)
      (deduped : List (Wrapped tag inner.Carrier) → List (Wrapped tag inner.Carrier)),
      DedupsBy inner.interface inner.unsignZeros inner.holdsNan equal deduped) ∧
    (inner.isExact = true → ∀ v, inner.unsignZeros v = v ∧ inner.holdsNan v = false) := by
  refine ⟨?_, fun exact v =>
    ⟨inner.unsignZeros_of_isExact exact v, inner.holdsNan_of_isExact exact v⟩⟩
  have both : (tag.name?.isSome && inner.interface.equal?.isSome) = true :=
    (Tag.isSome_forward _ _ _).symm.trans compares
  obtain ⟨named, has⟩ := Bool.and_eq_true_iff.mp both
  obtain ⟨name, named⟩ := Option.isSome_iff_exists.mp named
  obtain ⟨bare, has⟩ := Option.isSome_iff_exists.mp has
  have partially := inner.partialEquality bare has
  exact ⟨_, _, dedupsBy named has ⟨partially.symm, partially.trans⟩ (inner.equal_iff bare has)⟩

/-- Zeros of both signs between them, and two items that are not numbers. -/
theorem dedups_by_stretches_ratio :
    let I := Interface.float .double
    let plus : Wrapped (Tag.named "Ratio") (Binary .double) := ⟨Binary.zero false⟩
    let minus : Wrapped (Tag.named "Ratio") (Binary .double) := ⟨Binary.zero true⟩
    let nan : Wrapped (Tag.named "Ratio") (Binary .double) := ⟨.nan⟩
    let mixed := [plus, minus, nan, nan, minus, plus, minus]
    let kept := [plus, nan, nan, minus]
    Catalogue.ratio.supports .equality = true ∧
      performList I mixed .dedup = (.done (.values (kept.map value)), kept) := by
  intro I plus minus nan mixed kept
  have compares : Catalogue.ratio.supports .equality = true := rfl
  obtain ⟨⟨equal, deduped, dedups⟩, -⟩ := dedups_by_stretches (Tag.named "Ratio") (.float .double)
    compares
  have same (a b : Wrapped (Tag.named "Ratio") (Binary .double)) :
      equal a b = decide (a.value.unsignZero = b.value.unsignZero ∧ a.value ≠ .nan) := by
    rw [Bool.eq_iff_iff, decide_eq_true_iff]
    exact (dedups.equal_iff a b).trans (and_congr_right' decide_eq_false_iff_not)
  have divided : Collection.Stretches equal mixed
      [[plus, minus], [nan], [nan], [minus, plus, minus]] := by
    obtain rfl := funext₂ same
    exact ⟨rfl, by simp, by decide, by decide⟩
  refine ⟨compares, ?_⟩
  have outcome := dedups.dedup mixed
  rwa [dedups.heads mixed _ divided] at outcome

end Wrapped

end Nominal
