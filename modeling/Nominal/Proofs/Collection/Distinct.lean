import Nominal.Proofs.Collection.Dedup
import Nominal.Proofs.Collection.Sorted

/-! The distinct items of a list. An order, a digest and an equality each give a way to find
them: a set in ascending order, a set by digest, and a walk through the list that asks every
item whether it is the one looked for. As the three agree on which items are the same, so do
the answers. The ascending set is what is left of the sorted list without repetitions, its
ends are the extreme items, and the set by digest has as many items. -/

namespace Nominal

variable {V : Type}

namespace Collection

def Increases (compare : V → V → Ordering) (vs : List V) : Prop :=
  vs.Pairwise fun a b => compare a b = .lt

theorem mem_foldl_insert {insert : List V → V → List V}
    (adds : ∀ set v w, w ∈ insert set v ↔ w = v ∨ w ∈ set) (set vs : List V) (w : V) :
    w ∈ vs.foldl insert set ↔ w ∈ set ∨ w ∈ vs := by
  induction vs generalizing set with
  | nil => simp
  | cons v rest ih =>
    rw [List.foldl_cons, ih, adds, List.mem_cons, or_assoc]
    exact or_left_comm

structure IsTop (compare : V → V → Ordering) (vs : List V) (top? : Option V) : Prop where
  none_iff : top? = none ↔ vs = []
  mem : ∀ top ∈ top?, top ∈ vs
  above : ∀ top ∈ top?, ∀ v ∈ vs, (compare v top).isLE = true

section Order

variable {compare : V → V → Ordering} (order : Std.TransCmp compare)
include order

theorem Increases.nodup {vs : List V} (increases : Increases compare vs) : vs.Nodup := by
  refine increases.imp fun {a b} less same => ?_
  have itself : compare a b = .eq := same ▸ Std.ReflCmp.compare_self
  rw [itself] at less
  cases less

theorem Ascends.increases {vs : List V} (ascends : Ascends compare vs)
    (apart : vs.IsChain fun a b => (compare a b).isEq = false) : Increases compare vs := by
  have : Trans (fun a b => compare a b = .lt) (fun a b => compare a b = .lt)
    fun a b => compare a b = .lt := ⟨order.lt_trans⟩
  refine List.IsChain.pairwise ?_
  induction apart with
  | nil => exact .nil
  | singleton v => exact .singleton v
  | cons_cons differ _ ih =>
    refine .cons_cons ?_ (ih ascends.of_cons)
    have le := List.rel_of_pairwise_cons ascends List.mem_cons_self
    rcases Ordering.isLE_iff_eq_lt_or_eq_eq.mp le with less | same
    · exact less
    · rw [same] at differ
      cases differ

/-- One increasing list has the given values. -/
theorem Increases.eq_of_mem_iff {vs ws : List V} (left : Increases compare vs)
    (right : Increases compare ws) (items : ∀ v, v ∈ vs ↔ v ∈ ws) : vs = ws := by
  -- Without repetitions, lists with the same values are rearrangements of each other.
  have rearranged : vs.Perm ws :=
    (List.perm_ext_iff_of_nodup (left.nodup order) (right.nodup order)).mpr items
  refine rearranged.eq_of_pairwise ?_ left right
  intro a b _ _ below above
  exact absurd above (Std.OrientedCmp.not_lt_of_lt below)

theorem Increases.isTop_getLast? {vs : List V} (increases : Increases compare vs) :
    IsTop compare vs vs.getLast? where
  none_iff := List.getLast?_eq_none_iff
  mem _ := List.mem_of_getLast?
  above top last v mem := by
    obtain ⟨front, rfl⟩ := List.getLast?_eq_some_iff.mp last
    rcases List.mem_append.mp mem with earlier | itself
    · have less := (List.pairwise_append.mp increases).2.2 v earlier top List.mem_cons_self
      rw [less]
      rfl
    · rw [List.mem_singleton.mp itself]
      exact Std.ReflCmp.isLE_rfl

theorem Increases.isTop_head? {vs : List V} (increases : Increases compare vs) :
    IsTop (fun a b => compare b a) vs vs.head? where
  none_iff := List.head?_eq_none_iff
  mem _ := List.mem_of_head?
  above bottom first v mem := by
    obtain ⟨rest, rfl⟩ := List.head?_eq_some_iff.mp first
    rcases List.mem_cons.mp mem with rfl | later
    · exact Std.ReflCmp.isLE_rfl
    · have less := List.rel_of_pairwise_cons increases later
      rw [less]
      rfl

section Choice

variable {choose : V → V → V} (takes : ∀ a b,
  choose a b = a ∧ (compare b a).isLE = true ∨ choose a b = b ∧ (compare a b).isLE = true)
include takes

theorem foldl_mem_and_isLE (v : V) (rest : List V) : rest.foldl choose v ∈ v :: rest ∧
    ∀ u ∈ v :: rest, (compare u (rest.foldl choose v)).isLE = true := by
  induction rest generalizing v with
  | nil => exact ⟨List.mem_cons_self, List.forall_mem_singleton.mpr Std.ReflCmp.isLE_rfl⟩
  | cons w rest ih =>
    obtain ⟨mem, above⟩ := ih (choose v w)
    rw [List.foldl_cons, List.forall_mem_cons, List.forall_mem_cons]
    obtain ⟨reached, above⟩ := List.forall_mem_cons.mp above
    rcases takes v w with ⟨same, below⟩ | ⟨same, below⟩
    · rw [same] at mem reached above ⊢
      have kept := ((List.sublist_cons_self w rest).cons_cons v).subset mem
      exact ⟨kept, reached, order.isLE_trans below reached, above⟩
    · rw [same] at mem reached above ⊢
      exact ⟨List.mem_cons_of_mem v mem, order.isLE_trans below reached, reached, above⟩

theorem isTop_reduce? (vs : List V) : IsTop compare vs (reduce? choose vs) := by
  cases vs with
  | nil => exact ⟨iff_of_true rfl rfl, nofun, nofun⟩
  | cons v rest =>
    obtain ⟨mem, above⟩ := foldl_mem_and_isLE order takes v rest
    refine ⟨iff_of_false nofun nofun, ?_, ?_⟩
    · rintro _ ⟨⟩
      exact mem
    · rintro _ ⟨⟩
      exact above

end Choice

theorem isTop_greatest? (vs : List V) : IsTop compare vs (greatest? compare vs) := by
  refine isTop_reduce? order (fun a b => ?_) vs
  have swapped : compare b a = (compare a b).swap := order.eq_swap
  simp only [swapped]
  cases compare a b <;> simp

theorem isTop_foldGreatest? (vs : List V) :
    IsTop compare vs (foldGreatest? (fun a b => some (compare a b)) vs) := by
  refine isTop_reduce? order (fun a b => ?_) vs
  have swapped : compare b a = (compare a b).swap := order.eq_swap
  simp only [swapped]
  cases compare a b <;> simp

theorem isTop_least? (vs : List V) : IsTop (fun a b => compare b a) vs (least? compare vs) := by
  refine isTop_reduce? .opposite (fun a b => ?_) vs
  have swapped : compare b a = (compare a b).swap := order.eq_swap
  simp only [swapped]
  cases compare a b <;> simp

theorem isTop_foldLeast? (vs : List V) :
    IsTop (fun a b => compare b a) vs (foldLeast? (fun a b => some (compare a b)) vs) := by
  refine isTop_reduce? .opposite (fun a b => ?_) vs
  have swapped : compare b a = (compare a b).swap := order.eq_swap
  simp only [swapped]
  cases compare a b <;> simp

variable (lawful : Std.LawfulEqCmp compare)
include lawful

theorem IsTop.unique {vs ws : List V} {m? n? : Option V} (left : IsTop compare vs m?)
    (right : IsTop compare ws n?) (items : ∀ v, v ∈ vs ↔ v ∈ ws) : m? = n? := by
  have empty : vs = [] ↔ ws = [] := by
    simp only [List.eq_nil_iff_forall_not_mem, items]
  cases m? with
  | none => exact (right.none_iff.mpr (empty.mp (left.none_iff.mp rfl))).symm
  | some m =>
    cases n? with
    | none => exact left.none_iff.mpr (empty.mpr (right.none_iff.mp rfl))
    | some n =>
      have below := right.above n rfl m ((items m).mp (left.mem m rfl))
      have above := left.above m rfl n ((items n).mpr (right.mem n rfl))
      rw [lawful.eq_of_compare (order.isLE_antisymm below above)]

omit order in
theorem mem_insert_iff (v w : V) (set : List V) : w ∈ insert compare v set ↔ w = v ∨ w ∈ set := by
  induction set with
  | nil => exact List.mem_cons
  | cons u rest ih =>
    rw [insert]
    split
    · exact List.mem_cons
    · rename_i same
      rw [lawful.eq_of_compare same, List.mem_cons]
      exact or_self_left.symm
    · rw [List.mem_cons, ih, List.mem_cons]
      exact or_left_comm

theorem Increases.insert {set : List V} (increases : Increases compare set) (v : V) :
    Increases compare (insert compare v set) := by
  induction set with
  | nil => exact List.pairwise_singleton _ v
  | cons u rest ih =>
    rw [Collection.insert]
    split
    · rename_i less
      refine .cons (List.forall_mem_cons.mpr ⟨less, fun w later => ?_⟩) increases
      exact order.lt_trans less (List.rel_of_pairwise_cons increases later)
    · exact increases
    · rename_i greater
      refine .cons (fun w mem => ?_) (ih increases.of_cons)
      rcases (mem_insert_iff lawful v w rest).mp mem with rfl | later
      · exact Std.OrientedCmp.lt_of_gt greater
      · exact List.rel_of_pairwise_cons increases later

theorem increases_orderedSet (vs : List V) : Increases compare (orderedSet compare vs) :=
  List.foldlRecOn vs _ .nil fun _ increases v _ => increases.insert order lawful v

omit order in
theorem mem_orderedSet_iff (vs : List V) (w : V) : w ∈ orderedSet compare vs ↔ w ∈ vs := by
  have items := mem_foldl_insert (fun set v w => mem_insert_iff lawful v w set) [] vs w
  exact items.trans (or_iff_right List.not_mem_nil)

theorem dedup_sort (vs : List V) :
    dedup (fun a b => (compare a b).isEq) (sort compare vs) = orderedSet compare vs := by
  have decides (a b : V) : (compare a b).isEq = true ↔ a = b := by
    rw [Ordering.isEq_iff_eq_eq, Std.LawfulEqCmp.compare_eq_iff_eq]
  have kept : (dedup (fun a b => (compare a b).isEq) (sort compare vs)).Sublist (sort compare vs) :=
    dedup_sublist _
  have increases := Ascends.increases order ((ascends_sort order vs).sublist kept)
    (isChain_dedup (.of_decides decides) _)
  refine increases.eq_of_mem_iff order (increases_orderedSet order lawful vs) fun v => ?_
  rw [mem_dedup_iff decides, (sort_perm vs).mem_iff, mem_orderedSet_iff lawful]

theorem IsTop.eq_getLast? {vs : List V} {top? : Option V} (top : IsTop compare vs top?) :
    top? = (orderedSet compare vs).getLast? := by
  have last := (increases_orderedSet order lawful vs).isTop_getLast? order
  exact top.unique order lawful last fun v => (mem_orderedSet_iff lawful vs v).symm

theorem IsTop.eq_head? {vs : List V} {top? : Option V}
    (bottom : IsTop (fun a b => compare b a) vs top?) : top? = (orderedSet compare vs).head? := by
  have first := (increases_orderedSet order lawful vs).isTop_head? order
  exact bottom.unique .opposite .opposite first fun v => (mem_orderedSet_iff lawful vs v).symm

omit order in
theorem orderedSet_eq_nil_iff (vs : List V) : orderedSet compare vs = [] ↔ vs = [] := by
  simp only [List.eq_nil_iff_forall_not_mem, mem_orderedSet_iff lawful]

end Order

namespace Digest

variable {d : Digest V} (decides : ∀ a b, d.equal a b = true ↔ a = b)
include decides

/-- One value has one digest, so the digests do not tell apart what equality does not. -/
theorem contains_iff (set : List V) (v : V) : d.contains set v = true ↔ v ∈ set := by
  rw [contains, List.any_eq_true]
  constructor
  · rintro ⟨w, mem, same⟩
    rw [(decides v w).mp (Bool.and_eq_true_iff.mp same).1]
    exact mem
  · intro mem
    exact ⟨v, mem, Bool.and_eq_true_iff.mpr ⟨(decides v v).mpr rfl, beq_self_eq_true _⟩⟩

theorem mem_insert_iff (set : List V) (v w : V) : w ∈ d.insert set v ↔ w = v ∨ w ∈ set := by
  rw [insert]
  split
  · rename_i found
    refine (or_iff_right_of_imp ?_).symm
    rintro rfl
    exact (contains_iff decides set w).mp found
  · exact List.mem_cons

theorem mem_ofList_iff (vs : List V) (w : V) : w ∈ d.ofList vs ↔ w ∈ vs :=
  (mem_foldl_insert (mem_insert_iff decides) [] vs w).trans (or_iff_right List.not_mem_nil)

theorem nodup_ofList (vs : List V) : (d.ofList vs).Nodup := by
  refine List.foldlRecOn vs d.insert List.nodup_nil fun set nodup v _ => ?_
  rw [insert]
  split
  · exact nodup
  · rename_i missing
    rw [contains_iff decides] at missing
    exact List.nodup_cons.mpr ⟨missing, nodup⟩

theorem length_ofList {vs set : List V} (nodup : set.Nodup) (items : ∀ v, v ∈ set ↔ v ∈ vs) :
    (d.ofList vs).length = set.length := by
  have rearranged : (d.ofList vs).Perm set :=
    (List.perm_ext_iff_of_nodup (nodup_ofList decides vs) nodup).mpr fun v =>
      (mem_ofList_iff decides vs v).trans (items v).symm
  exact rearranged.length_eq

end Digest

theorem findIdx?_eq_some_iff {same : V → Bool} {v : V} (decides : ∀ w, same w = true ↔ w = v)
    (vs : List V) (i : Nat) :
    vs.findIdx? same = some i ↔ vs[i]? = some v ∧ ∀ j < i, vs[j]? ≠ some v := by
  have differs (j : Nat) (short : j < vs.length) :
      ¬ same vs[j] = true ↔ vs[j]? ≠ some v := by
    rw [decides, Ne, List.getElem?_eq_some_iff]
    exact not_congr ⟨fun found => ⟨short, found⟩, fun ⟨_, found⟩ => found⟩
  rw [List.findIdx?_eq_some_iff_getElem, List.getElem?_eq_some_iff]
  constructor
  · rintro ⟨short, found, before⟩
    exact ⟨⟨short, (decides _).mp found⟩, fun j earlier =>
      (differs j (earlier.trans short)).mp (before j earlier)⟩
  · rintro ⟨⟨short, found⟩, before⟩
    exact ⟨short, (decides _).mpr found, fun j earlier =>
      (differs j (earlier.trans short)).mpr (before j earlier)⟩

theorem countP_add_countP_add_countP (place : V → Ordering) (vs : List V) :
    vs.countP (fun v => (place v).isLT) + vs.countP (fun v => (place v).isEq) +
      vs.countP (fun v => (place v).isGT) = vs.length := by
  induction vs with
  | nil => rfl
  | cons v rest ih =>
    simp only [List.countP_cons, List.length_cons, ← ih]
    cases place v <;> simp <;> omega

end Collection

namespace Wrapped

variable {tag : Tag}

section Steps

variable (I : Interface V) (compare : Wrapped tag V → Wrapped tag V → Ordering)
  (ws set : List (Wrapped tag V))

/-- The ascending set of a list: the list sorted and without repetitions, with the extreme
items at its ends. -/
structure ListsBy : Prop where
  orderedSet : performList I ws .orderedSet = (.done (.values (set.map value)), ws)
  increases : set.Pairwise fun a b => compare a b = .lt
  mem_iff : ∀ w, w ∈ set ↔ w ∈ ws
  sorted : ∃ sorted, performList I ws .sort = (.done (.values (sorted.map value)), sorted) ∧
    performList I sorted .dedup = (.done (.values (set.map value)), set)
  greatest : performList I ws .greatest = (.done (.value? (set.getLast?.map value)), ws)
  foldGreatest : performList I ws .foldGreatest = (.done (.value? (set.getLast?.map value)), ws)
  least : performList I ws .least = (.done (.value? (set.head?.map value)), ws)
  foldLeast : performList I ws .foldLeast = (.done (.value? (set.head?.map value)), ws)
  getLast_none : set.getLast? = none ↔ ws = []
  head_none : set.head? = none ↔ ws = []

/-- What there is of one item: whether the set by digest has it, the first place it stands at
and how often it occurs, and the items below it as they follow one another. -/
structure FindsBy (key : V) (has : Bool) (place? : Option Nat) (times : Nat)
    (lower : List (Wrapped tag V)) : Prop where
  hashSet : performList I ws (.hashSet key) = (.done (.set set.length has), ws)
  position : performList I ws (.position key) = (.done (.index? place?), ws)
  occurrences : performList I ws (.occurrences key) = (.done (.count times), ws)
  below : performList I ws (.below key) = (.done (.values (lower.map value)), ws)
  has_iff_mem : has = true ↔ ⟨key⟩ ∈ ws
  has_iff_place : has = true ↔ place?.isSome = true
  has_iff_times : has = true ↔ 0 < times
  first : ∀ i, place? = some i ↔ ws[i]? = some ⟨key⟩ ∧ ∀ j < i, ws[j]? ≠ some ⟨key⟩
  equals : times = ws.countP fun w => (compare w ⟨key⟩).isEq
  less : lower = ws.filter fun w => (compare w ⟨key⟩).isLT
  length : lower.length + times + ws.countP (fun w => (compare w ⟨key⟩).isGT) = ws.length

end Steps

section Named

variable {I : Interface V} {bare : V → V → Ordering} {name : Text}
  (named : tag.name? = some name) (partially : I.partialCompare? = some fun a b => some (bare a b))
  (equal : I.equal? = some fun a b => (bare a b).isEq)
  (order : Std.TransCmp fun a b : Wrapped tag V => bare a.value b.value)
  (lawful : Std.LawfulEqCmp fun a b : Wrapped tag V => bare a.value b.value)
include named partially equal order lawful

theorem listsBy (total : I.compare? = some bare) (ws : List (Wrapped tag V)) :
    ListsBy I (fun a b : Wrapped tag V => bare a.value b.value) ws
      (Collection.orderedSet (fun a b => bare a.value b.value) ws) := by
  have compares := Interface.compare?_wrap named total
  have relates := Interface.partialCompare?_wrap named partially
  have equals := Interface.equal?_wrap named equal
  have empty := Collection.orderedSet_eq_nil_iff lawful ws
  refine ⟨?_, Collection.increases_orderedSet order lawful ws,
    Collection.mem_orderedSet_iff lawful ws,
    ⟨Collection.sort (fun a b => bare a.value b.value) ws, ?_, ?_⟩, ?_, ?_, ?_, ?_,
    List.getLast?_eq_none_iff.trans empty, List.head?_eq_none_iff.trans empty⟩
  · simp only [performList, compares, Option.map_some, report]
  · simp only [performList, compares, Option.map_some, rearrange]
  · simp only [performList, equals, Option.map_some, rearrange, Collection.dedup_sort order lawful]
  · have top := (Collection.isTop_greatest? order ws).eq_getLast? order lawful
    simp only [performList, compares, Option.map_some, report, top]
  · have top := (Collection.isTop_foldGreatest? order ws).eq_getLast? order lawful
    simp only [performList, relates, Option.map_some, report, top]
  · have bottom := (Collection.isTop_least? order ws).eq_head? order lawful
    simp only [performList, compares, Option.map_some, report, bottom]
  · have bottom := (Collection.isTop_foldLeast? order ws).eq_head? order lawful
    simp only [performList, relates, Option.map_some, report, bottom]

theorem findsBy {hash : V → List UInt8} (reflexive : I.reflexive = true)
    (hashes : I.hash? = some hash) (ws : List (Wrapped tag V)) (key : V) :
    ∃ has place? times lower, FindsBy I (fun a b : Wrapped tag V => bare a.value b.value) ws
      (Collection.orderedSet (fun a b => bare a.value b.value) ws) key has place? times lower := by
  have equals := Interface.equal?_wrap named equal
  have equalsBare : I.equalBare? tag = some fun w v => (bare w.value v).isEq := by
    simp only [Interface.equalBare?, equal, Tag.forward_named named]
  have relatesBare : I.partialCompareBare? tag = some fun w v => some (bare w.value v) := by
    simp only [Interface.partialCompareBare?, partially, Tag.forward_named named]
  let d : Collection.Digest (Wrapped tag V) :=
    ⟨fun a b => (bare a.value b.value).isEq, fun w => hash w.value⟩
  have digests : digest? (I.wrap tag) = some d := by
    have relied : (I.wrap tag).reflexive = true := by rw [Interface.wrap, named, reflexive]; rfl
    simp only [digest?, equals, Interface.hash?_wrap named hashes, relied, if_true, d]
  have decides (a b : Wrapped tag V) : (bare a.value b.value).isEq = true ↔ a = b :=
    Ordering.isEq_iff_eq_eq.trans lawful.compare_eq_iff_eq
  have size := Collection.Digest.length_ofList (d := d) decides
    ((Collection.increases_orderedSet order lawful ws).nodup order)
    (Collection.mem_orderedSet_iff lawful ws)
  have found : d.contains (d.ofList ws) ⟨key⟩ = true ↔ ⟨key⟩ ∈ ws :=
    (Collection.Digest.contains_iff decides _ _).trans
      (Collection.Digest.mem_ofList_iff decides ws _)
  have occurs : (∃ w ∈ ws, (bare w.value key).isEq = true) ↔ ⟨key⟩ ∈ ws := by
    simp only [fun w => decides w ⟨key⟩, exists_eq_right]
  have lower (o : Ordering) : (some o == some .lt) = o.isLT := by cases o <;> rfl
  refine ⟨d.contains (d.ofList ws) ⟨key⟩, ws.findIdx? fun w => (bare w.value key).isEq,
    ws.countP fun w => (bare w.value key).isEq, ws.filter fun w => (bare w.value key).isLT,
    ?_, ?_, ?_, ?_, found, ?_, ?_, ?_, rfl, rfl, ?_⟩
  · simp only [performList, digests, Option.map_some, report, size]
  · simp only [performList, equalsBare, Option.map_some, report]
  · simp only [performList, equals, Option.map_some, report]
  · simp only [performList, relatesBare, Option.map_some, report, lower]
  · rw [found, List.findIdx?_isSome, List.any_eq_true, occurs]
  · rw [found, List.countP_pos_iff, occurs]
  · exact Collection.findIdx?_eq_some_iff (fun w => decides w ⟨key⟩) ws
  · rw [← List.countP_eq_length_filter]
    exact Collection.countP_add_countP_add_countP (fun w => bare w.value key) ws

end Named

/-- The ascending set of a list, its set by digest and the walks through it agree on what items
there are. Every item is below a given one, equal to it or above it. -/
theorem collections_agree (tag : Tag) (inner : Ty)
    (ordered : Capability.ord ∈ (Ty.wrapped tag inner).capabilities) :
    Capability.hash ∈ (Ty.wrapped tag inner).capabilities ∧
    ∃ compare : Wrapped tag inner.Carrier → Wrapped tag inner.Carrier → Ordering,
      Std.TransCmp compare ∧ Std.LawfulEqCmp compare ∧
      (∀ w v, perform inner.interface w (.compare v) =
        answer (.ordering (some (compare w ⟨v⟩))) w) ∧
      ∀ ws, ∃ set, ListsBy inner.interface compare ws set ∧
        ∀ key, ∃ has place? times lower,
          FindsBy inner.interface compare ws set key has place? times lower := by
  have exact := (Ty.mem_capabilities_iff_isExact _ rfl).mp ordered
  have hashable : Capability.hash ∈ (Ty.wrapped tag inner).capabilities :=
    (Ty.mem_capabilities_iff_isExact _ rfl).mpr exact
  obtain ⟨-, hashes⟩ := (Interface.mem_capabilities_wrapped_iff tag inner rfl).mp hashable
  obtain ⟨hash, hashes⟩ := Option.isSome_iff_exists.mp hashes
  obtain ⟨name, bare, named, total, order, lawful, partially, equal⟩ :=
    Ty.exists_order_wrapped ordered
  have reflexive := inner.consistent.reflexive_of_compare (Option.isSome_of_eq_some total)
  refine ⟨hashable, _, order, lawful, fun w v => ?_, fun ws => ⟨_,
    listsBy named partially equal order lawful total ws,
    findsBy named partially equal order lawful reflexive hashes ws⟩⟩
  simp only [perform, Interface.compare?_wrap named total]
  rfl

theorem collections_agree_letter :
    let I := Interface.char
    let letter (c : Char) : Wrapped (Tag.named "Letter") Char := ⟨c⟩
    let ws := [letter 'ë', letter 'Z', letter 'ë']
    Capability.ord ∈ Catalogue.letter.capabilities ∧
      ∃ set : List (Wrapped (Tag.named "Letter") Char),
        performList I ws .orderedSet = (.done (.values (set.map value)), ws) ∧
        performList I ws .foldGreatest = performList I ws .greatest ∧
        performList I ws (.hashSet 'ë') = (.done (.set set.length true), ws) ∧
        performList I ws (.position 'ë') = (.done (.index? (some 0)), ws) := by
  intro I letter ws
  have ordered : Capability.ord ∈ Catalogue.letter.capabilities := by decide
  obtain ⟨-, compare, -, -, -, agree⟩ := collections_agree (Tag.named "Letter") .char ordered
  obtain ⟨set, lists, finds⟩ := agree ws
  obtain ⟨has, place?, times, lower, finds⟩ := finds 'ë'
  obtain rfl : has = true := finds.has_iff_mem.mpr List.mem_cons_self
  obtain rfl : place? = some 0 := (finds.first 0).mpr ⟨rfl, nofun⟩
  exact ⟨ordered, set, lists.orderedSet, lists.foldGreatest.trans lists.greatest.symm,
    finds.hashSet, finds.position⟩

end Wrapped

end Nominal
