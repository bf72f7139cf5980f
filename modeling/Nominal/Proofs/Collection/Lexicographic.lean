import Nominal.Proofs.Collection.Sorted

/-! Lists compared like words. The first place where two lists differ decides, and a list comes
after everything it continues. Over a total order of the items this is a total order of the
lists, and among the rearrangements of a list the ascending one is the least and the
descending one the greatest: neither can be beaten at the first place where it differs. -/

namespace Nominal

variable {V : Type}

namespace Collection

section Order

variable {compare : V → V → Ordering}

theorem compareLex_append_left (order : Std.TransCmp compare) (front s t : List V) :
    List.compareLex compare (front ++ s) (front ++ t) = List.compareLex compare s t := by
  induction front with
  | nil => rfl
  | cons v front ih =>
    have itself : compare v v = .eq := Std.ReflCmp.compare_self
    rw [List.cons_append, List.cons_append, List.compareLex_cons_cons, itself, ih]
    rfl

theorem compareLex_append_self (order : Std.TransCmp compare) (vs : List V) {rest : List V}
    (continues : rest ≠ []) : List.compareLex compare vs (vs ++ rest) = .lt := by
  have ends := compareLex_append_left order vs [] rest
  rw [List.append_nil] at ends
  obtain ⟨v, rest, rfl⟩ := List.exists_cons_of_ne_nil continues
  rw [ends, List.compareLex_nil_cons]

theorem compareLex_of_ne (order : Std.TransCmp compare) (lawful : Std.LawfulEqCmp compare)
    (front s t : List V) {a b : V} (differ : a ≠ b) :
    List.compareLex compare (front ++ a :: s) (front ++ b :: t) = compare a b := by
  rw [compareLex_append_left order, List.compareLex_cons_cons]
  cases found : compare a b with
  | lt => rfl
  | eq => exact absurd (lawful.eq_of_compare found) differ
  | gt => rfl

theorem compareLex_opposite {vs ws : List V} (long : vs.length = ws.length) :
    List.compareLex (fun a b => compare b a) vs ws = List.compareLex compare ws vs := by
  induction vs generalizing ws with
  | nil =>
    rw [List.eq_nil_of_length_eq_zero long.symm]
    rfl
  | cons v vs ih =>
    cases ws with
    | nil => cases long
    | cons w ws =>
      rw [List.compareLex_cons_cons, List.compareLex_cons_cons, ih (Nat.succ.inj long)]

theorem Ascends.compareLex_isLE (lawful : Std.LawfulEqCmp compare) {vs ws : List V}
    (ascends : Ascends compare vs) (rearranged : vs.Perm ws) :
    (List.compareLex compare vs ws).isLE = true := by
  induction vs generalizing ws with
  | nil =>
    rw [List.nil_perm.mp rearranged]
    rfl
  | cons v vs ih =>
    cases ws with
    | nil => cases rearranged.eq_nil
    | cons w ws =>
      have below : (compare v w).isLE = true := by
        rcases List.mem_cons.mp (rearranged.mem_iff.mpr List.mem_cons_self) with rfl | later
        · exact Std.ReflCmp.isLE_rfl
        · exact List.rel_of_pairwise_cons ascends later
      rw [List.compareLex_cons_cons]
      rcases Ordering.isLE_iff_eq_lt_or_eq_eq.mp below with less | same
      · rw [less]
        rfl
      · -- The heads are the same item, so the rest of one list rearranges the rest of the other.
        obtain rfl := lawful.eq_of_compare same
        rw [same]
        exact ih ascends.of_cons rearranged.cons_inv

variable (order : Std.TransCmp compare) (lawful : Std.LawfulEqCmp compare)
include order lawful

theorem compareLex_sort_isLE {vs ws : List V} (rearranged : vs.Perm ws) :
    (List.compareLex compare (sort compare vs) ws).isLE = true :=
  (ascends_sort order vs).compareLex_isLE lawful ((sort_perm vs).trans rearranged)

theorem compareLex_sortDescending_isLE {vs ws : List V} (rearranged : vs.Perm ws) :
    (List.compareLex compare ws (sortDescending compare vs)).isLE = true := by
  have descends : Ascends (fun a b => compare b a) (sortDescending compare vs) :=
    descends_sortDescending order vs
  have items : (sortDescending compare vs).Perm ws := (sortDescending_perm vs).trans rearranged
  rw [← compareLex_opposite items.length_eq]
  exact descends.compareLex_isLE .opposite items

end Order

end Collection

namespace Wrapped

variable {tag : Tag}

/-- Lists are compared item by item in the order that compares two wrappers, and sorting finds
the least and the greatest of the rearrangements of a list. -/
structure ComparesListsBy (I : Interface V) (compare : Wrapped tag V → Wrapped tag V → Ordering)
    (lex : List (Wrapped tag V) → List (Wrapped tag V) → Ordering)
    (ascending descending : List (Wrapped tag V) → List (Wrapped tag V)) : Prop where
  items : ∀ w v, perform I w (.compare v) = answer (.ordering (some (compare w ⟨v⟩))) w
  lists : ∀ ws key, performList I ws (.lexCompare key) =
    (.done (.ordering (lex ws (key.map Wrapped.mk))), ws)
  total : Std.TransCmp lex
  eq_iff : ∀ ws ws', lex ws ws' = .eq ↔ ws = ws'
  continued : ∀ ws rest, rest ≠ [] → lex ws (ws ++ rest) = .lt
  decided : ∀ front s t, ∀ a b : Wrapped tag V, a ≠ b →
    lex (front ++ a :: s) (front ++ b :: t) = compare a b
  sort : ∀ ws, performList I ws .sort = (.done (.values ((ascending ws).map value)), ascending ws)
  sortDescending : ∀ ws, performList I ws .sortDescending =
    (.done (.values ((descending ws).map value)), descending ws)
  least : ∀ ws ws', ws.Perm ws' → (lex (ascending ws) ws').isLE = true
  greatest : ∀ ws ws', ws.Perm ws' → (lex ws' (descending ws)).isLE = true

theorem comparesListsBy {I : Interface V} {bare : V → V → Ordering} {name : Text}
    (named : tag.name? = some name) (total : I.compare? = some bare)
    (order : Std.TransCmp fun a b : Wrapped tag V => bare a.value b.value)
    (lawful : Std.LawfulEqCmp fun a b : Wrapped tag V => bare a.value b.value) :
    ComparesListsBy I (fun a b : Wrapped tag V => bare a.value b.value)
      (List.compareLex fun a b => bare a.value b.value)
      (Collection.sort fun a b => bare a.value b.value)
      (Collection.sortDescending fun a b => bare a.value b.value) := by
  have compares := Interface.compare?_wrap named total
  refine ⟨fun w v => ?_, fun ws key => ?_, inferInstance,
    fun ws ws' => Std.LawfulEqCmp.compare_eq_iff_eq,
    fun ws rest => Collection.compareLex_append_self order ws,
    fun front s t a b => Collection.compareLex_of_ne order lawful front s t,
    fun ws => ?_, fun ws => ?_, fun ws ws' => Collection.compareLex_sort_isLE order lawful,
    fun ws ws' => Collection.compareLex_sortDescending_isLE order lawful⟩
  · simp only [perform, compares]
    rfl
  · simp only [performList, compares, Option.map_some, report]
  · simp only [performList, compares, Option.map_some, rearrange]
  · simp only [performList, compares, Option.map_some, rearrange]

/-- Lists are in a total order, in which just the same lists are equal, and of all rearrangements
of a list none is less than the sorted one and none greater than the one in descending order. -/
theorem lists_compare_lexicographically (tag : Tag) (inner : Ty)
    (ordered : Capability.ord ∈ (Ty.wrapped tag inner).capabilities) :
    ∃ (compare : Wrapped tag inner.Carrier → Wrapped tag inner.Carrier → Ordering)
      (lex : List (Wrapped tag inner.Carrier) → List (Wrapped tag inner.Carrier) → Ordering)
      (ascending descending :
        List (Wrapped tag inner.Carrier) → List (Wrapped tag inner.Carrier)),
      ComparesListsBy inner.interface compare lex ascending descending := by
  obtain ⟨name, bare, named, total, order, lawful, -, -⟩ := Ty.exists_order_wrapped ordered
  exact ⟨_, _, _, _, comparesListsBy named total order lawful⟩

theorem lists_compare_lexicographically_pair :
    let I := (Interface.integer .int32).pair (Interface.integer .int32)
    let pair (m n : Int) : Wrapped (Tag.named "Pair") (FixedInt .int32 × FixedInt .int32) :=
      ⟨FixedInt.clamp .int32 m, FixedInt.clamp .int32 n⟩
    let mixed := [pair 1 0, pair 0 7, pair 0 (-7)]
    let turned := [pair 0 7, pair 1 0, pair 0 (-7)]
    Capability.ord ∈ Catalogue.pair.capabilities ∧ mixed.Perm turned ∧
      ∃ sorted o, performList I mixed .sort = (.done (.values (sorted.map value)), sorted) ∧
        performList I sorted (.lexCompare (turned.map value)) = (.done (.ordering o), sorted) ∧
        o.isLE = true := by
  intro I pair mixed turned
  have ordered : Capability.ord ∈ Catalogue.pair.capabilities := by decide
  have rearranged : mixed.Perm turned := by decide
  obtain ⟨compare, lex, ascending, descending, compares⟩ := lists_compare_lexicographically
    (Tag.named "Pair") (.pair (.int .int32) (.int .int32)) ordered
  exact ⟨ordered, rearranged, ascending mixed, lex (ascending mixed) turned,
    compares.sort mixed, compares.lists _ (turned.map value),
    compares.least mixed turned rearranged⟩

end Wrapped

end Nominal
