import Mathlib.Data.List.Chain
import Nominal.Catalogue
import Nominal.Proofs.Collection.Along
import Nominal.Proofs.Comparison

/-! Sorted lists. A total order that calls equal only equal values leaves one ascending list for
the items of a list, so whatever ascends and has these items is that list: the sorted list of
any rearrangement, of the sorted list itself, and of the bare values put back into wrappers.
The descending list is its reverse. -/

namespace Nominal

variable {V : Type}

namespace Collection

def Ascends (compare : V → V → Ordering) (vs : List V) : Prop :=
  vs.Pairwise fun a b => (compare a b).isLE = true

section Order

variable {compare : V → V → Ordering}

theorem sort_perm (vs : List V) : (sort compare vs).Perm vs := List.mergeSort_perm vs _

theorem sortDescending_perm (vs : List V) : (sortDescending compare vs).Perm vs :=
  List.mergeSort_perm vs _

theorem isLE_iff_ne_gt (o : Ordering) : o.isLE = true ↔ (o != .gt) = true := by
  cases o <;> decide

theorem isSorted_iff_isChain (compare : V → V → Option Ordering) (vs : List V) :
    isSorted compare vs = true ↔
      vs.IsChain fun a b => (compare a b == some .lt || compare a b == some .eq) = true := by
  induction vs with
  | nil => exact iff_of_true rfl .nil
  | cons v rest ih =>
    cases rest with
    | nil => exact iff_of_true rfl (.singleton v)
    | cons w rest =>
      rw [isSorted, Bool.and_eq_true, List.isChain_cons_cons]
      exact and_congr_right' ih

variable (order : Std.TransCmp compare)
include order

theorem ascends_sort (vs : List V) : Ascends compare (sort compare vs) := by
  simp only [Ascends, isLE_iff_ne_gt]
  apply List.pairwise_mergeSort
  · intro a b c
    simp only [← isLE_iff_ne_gt]
    exact order.isLE_trans
  · intro a b
    rw [order.eq_swap]
    cases compare b a <;> rfl

theorem descends_sortDescending (vs : List V) :
    (sortDescending compare vs).Pairwise fun a b => (compare b a).isLE = true := by
  simp only [isLE_iff_ne_gt]
  apply List.pairwise_mergeSort
  · intro a b c
    simp only [← isLE_iff_ne_gt]
    exact fun above below => order.isLE_trans below above
  · intro a b
    rw [order.eq_swap]
    cases compare a b <;> rfl

theorem isSorted_iff_ascends (vs : List V) :
    isSorted (fun a b => some (compare a b)) vs = true ↔ Ascends compare vs := by
  have neighbours (a b : V) :
      (some (compare a b) == some .lt || some (compare a b) == some .eq) = (compare a b).isLE := by
    cases compare a b <;> rfl
  have : Trans (fun a b => (compare a b).isLE = true) (fun a b => (compare a b).isLE = true)
      (fun a b => (compare a b).isLE = true) := ⟨order.isLE_trans⟩
  simp only [isSorted_iff_isChain, neighbours]
  exact List.isChain_iff_pairwise

variable (lawful : Std.LawfulEqCmp compare)
include lawful

theorem Ascends.eq_of_perm {vs ws : List V} (left : Ascends compare vs) (right : Ascends compare ws)
    (rearranged : vs.Perm ws) : vs = ws :=
  List.Perm.eq_of_pairwise (fun _ _ _ _ le ge => lawful.eq_of_compare (order.isLE_antisymm le ge))
    left right rearranged

theorem sort_eq_of_perm {vs ws : List V} (rearranged : vs.Perm ws) :
    sort compare vs = sort compare ws :=
  Ascends.eq_of_perm order lawful (ascends_sort order vs) (ascends_sort order ws)
    ((sort_perm vs).trans (rearranged.trans (sort_perm ws).symm))

theorem sort_eq_self_iff (vs : List V) : sort compare vs = vs ↔ Ascends compare vs := by
  constructor
  · intro same
    rw [← same]
    exact ascends_sort order vs
  · intro ascends
    exact Ascends.eq_of_perm order lawful (ascends_sort order vs) ascends (sort_perm vs)

theorem sort_sort (vs : List V) : sort compare (sort compare vs) = sort compare vs :=
  sort_eq_of_perm order lawful (sort_perm vs)

theorem sortDescending_eq_reverse (vs : List V) :
    sortDescending compare vs = (sort compare vs).reverse := by
  have ascends : Ascends compare (sortDescending compare vs).reverse :=
    List.pairwise_reverse.mpr (descends_sortDescending order vs)
  have items : (sortDescending compare vs).reverse.Perm (sort compare vs) :=
    (List.reverse_perm _).trans ((sortDescending_perm vs).trans (sort_perm vs).symm)
  rw [← Ascends.eq_of_perm order lawful ascends (ascends_sort order vs) items, List.reverse_reverse]

end Order

end Collection

namespace Wrapped

variable {tag : Tag}

/-- Sorting goes by the order that compares two wrappers, and has one result for the items. -/
structure SortsBy (I : Interface V) (compare : Wrapped tag V → Wrapped tag V → Ordering)
    (sorted : List (Wrapped tag V) → List (Wrapped tag V)) : Prop where
  order : ∀ w v, perform I w (.compare v) = answer (.ordering (some (compare w ⟨v⟩))) w
  sort : ∀ ws, performList I ws .sort = (.done (.values ((sorted ws).map value)), sorted ws)
  descending : ∀ ws, performList I ws .sortDescending =
    (.done (.values ((sorted ws).reverse.map value)), (sorted ws).reverse)
  perm : ∀ ws, (sorted ws).Perm ws
  ascends : ∀ ws, (sorted ws).Pairwise fun a b => (compare a b).isLE = true
  one : ∀ ws ws', ws.Perm ws' → sorted ws = sorted ws'
  sortAgain : ∀ ws, performList I (sorted ws) .sort =
    (.done (.values ((sorted ws).map value)), sorted ws)
  descendingAgain : ∀ ws, performList I (sorted ws).reverse .sortDescending =
    (.done (.values ((sorted ws).reverse.map value)), (sorted ws).reverse)
  isSorted : ∀ ws, ∃ b, performList I ws .isSorted = (.done (.truth b), ws) ∧
    (b = true ↔ sorted ws = ws) ∧ (b = true ↔ ws.Pairwise fun a b => (compare a b).isLE = true)
  bare : ∃ bare, I.compare? = some bare ∧
    ∀ ws, sorted ws = (Collection.sort bare (ws.map value)).map Wrapped.mk

theorem sortsBy {I : Interface V} {bare : V → V → Ordering} {name : Text}
    (named : tag.name? = some name) (total : I.compare? = some bare)
    (partially : I.partialCompare? = some fun a b => some (bare a b))
    (order : Std.TransCmp fun a b : Wrapped tag V => bare a.value b.value)
    (lawful : Std.LawfulEqCmp fun a b : Wrapped tag V => bare a.value b.value) :
    SortsBy I (fun a b : Wrapped tag V => bare a.value b.value)
      (Collection.sort fun a b => bare a.value b.value) := by
  have compares : (I.wrap tag).compare? = some fun a b => bare a.value b.value := by
    simp only [Interface.wrap, total, Tag.forward_named named]
  have relates : (I.wrap tag).partialCompare? = some fun a b => some (bare a.value b.value) := by
    simp only [Interface.wrap, partially, Tag.forward_named named]
  have sorts (ws : List (Wrapped tag V)) : performList I ws .sort =
      (.done (.values ((Collection.sort (fun a b => bare a.value b.value) ws).map value)),
        Collection.sort (fun a b => bare a.value b.value) ws) := by
    simp only [performList, compares, Option.map_some, rearrange]
  have descends (ws : List (Wrapped tag V)) : performList I ws .sortDescending =
      (.done (.values ((Collection.sort (fun a b => bare a.value b.value) ws).reverse.map value)),
        (Collection.sort (fun a b => bare a.value b.value) ws).reverse) := by
    rw [← Collection.sortDescending_eq_reverse order lawful]
    simp only [performList, compares, Option.map_some, rearrange]
  refine ⟨fun w v => ?_, sorts, descends, Collection.sort_perm,
    Collection.ascends_sort order, fun _ _ => Collection.sort_eq_of_perm order lawful,
    fun ws => ?_, fun ws => ?_, fun ws => ⟨_, ?_, ?_, Collection.isSorted_iff_ascends order ws⟩,
    bare, total, fun ws => ?_⟩
  · simp only [perform, compares]
    rfl
  · rw [sorts, Collection.sort_sort order lawful]
  · rw [descends, Collection.sort_eq_of_perm order lawful (List.reverse_perm _),
      Collection.sort_sort order lawful]
  · simp only [performList, relates, Option.map_some, report]
  · rw [Collection.isSorted_iff_ascends order, Collection.sort_eq_self_iff order lawful]
  · have carried : (Collection.sort (fun a b => bare a.value b.value) ws).map value =
        Collection.sort bare (ws.map value) := Collection.sort_map (h := value) (fun _ _ => rfl) ws
    rw [← carried, List.map_map]
    exact (List.map_id' _).symm

/-- Sorting gives every rearrangement of a list the same ascending list, and leaves alone just
the lists that ascend. To sort wrappers is to sort the bare values and to wrap them again. -/
theorem sorts_canonically (tag : Tag) (inner : Ty)
    (ordered : Capability.ord ∈ (Ty.wrapped tag inner).capabilities) :
    ∃ (compare : Wrapped tag inner.Carrier → Wrapped tag inner.Carrier → Ordering)
      (sorted : List (Wrapped tag inner.Carrier) → List (Wrapped tag inner.Carrier)),
      SortsBy inner.interface compare sorted := by
  obtain ⟨named, has⟩ := (Interface.mem_capabilities_wrapped_iff tag inner rfl).mp ordered
  obtain ⟨name, named⟩ := Option.isSome_iff_exists.mp named
  obtain ⟨bare, total, transitive, lawful, partially, -⟩ := inner.exists_order has
  have order := transCmp_of_key transitive (Wrapped.value : Wrapped tag inner.Carrier → _)
  have lawful := lawfulEqCmp_of_key lawful fun (a b : Wrapped tag inner.Carrier) => Wrapped.ext
  exact ⟨_, _, sortsBy named total partially order lawful⟩

theorem sorts_canonically_maybe :
    let I := (Interface.integer .int32).option
    let number (n : Int) : Wrapped (Tag.named "Maybe") (Option (FixedInt .int32)) :=
      ⟨some (FixedInt.clamp .int32 n)⟩
    let ascending := [⟨none⟩, number (-5), number 3, number 3]
    let mixed := [number 3, number (-5), ⟨none⟩, number 3]
    Capability.ord ∈ Catalogue.maybe.capabilities ∧
      performList I mixed .sort = (.done (.values (ascending.map value)), ascending) ∧
      performList I mixed .sortDescending =
        (.done (.values (ascending.reverse.map value)), ascending.reverse) := by
  intro I number ascending mixed
  have ordered : Capability.ord ∈ Catalogue.maybe.capabilities := by decide
  obtain ⟨compare, sorted, sorts⟩ := sorts_canonically (Tag.named "Maybe") (.option (.int .int32))
    ordered
  obtain ⟨found, told, unchanged, -⟩ := sorts.isSorted ascending
  have yes : performList I ascending .isSorted = (.done (.truth true), ascending) := rfl
  have same := congrArg Prod.fst (yes.symm.trans told)
  obtain rfl : true = found := by
    injection same with same
    injection same
  have rearranged : mixed.Perm ascending := by decide
  have reached : sorted mixed = ascending :=
    (sorts.one _ _ rearranged).trans (unchanged.mp rfl)
  refine ⟨ordered, ?_, ?_⟩
  · have outcome := sorts.sort mixed
    rwa [reached] at outcome
  · have outcome := sorts.descending mixed
    rwa [reached] at outcome

end Wrapped

end Nominal
