import Nominal.Collection.Run

/-! List steps and collections along a function of their values. Two comparisons, two
equalities or two digests that agree along the function lead every algorithm on lists to
the same places, so it does not matter whether a list is carried over before or after. -/

namespace Nominal

variable {V W : Type}

def ListStep.along (g : V → W) : ListStep V → ListStep W
  | .sort => .sort
  | .sortDescending => .sortDescending
  | .dedup => .dedup
  | .orderedSet => .orderedSet
  | .greatest => .greatest
  | .least => .least
  | .lexCompare key => .lexCompare (key.map g)
  | .hashSet key => .hashSet (g key)
  | .position key => .position (g key)
  | .occurrences key => .occurrences (g key)
  | .isSorted => .isSorted
  | .foldGreatest => .foldGreatest
  | .foldLeast => .foldLeast
  | .below key => .below (g key)
  | .sum => .sum
  | .sumRef => .sumRef
  | .product => .product
  | .productRef => .productRef
  | .join => .join
  | .debug s => .debug s
  | .unavailable => .unavailable

def ListAnswer.along (g : V → W) : ListAnswer V → ListAnswer W
  | .values vs => .values (vs.map g)
  | .value? v? => .value? (v?.map g)
  | .total v => .total (g v)
  | .ordering o => .ordering o
  | .set size holdsKey => .set size holdsKey
  | .index? i? => .index? i?
  | .count n => .count n
  | .truth b => .truth b
  | .text t => .text t

def ListReply.along (g : V → W) : ListReply V → ListReply W
  | .done a => .done (a.along g)
  | .fault f => .fault f
  | .unsupported => .unsupported

theorem ListStep.along_id (s : ListStep V) : (s.along fun v => v) = s := by
  cases s <;> simp only [ListStep.along, List.map_id']

theorem ListReply.along_id (reply : ListReply V) : (reply.along fun v => v) = reply := by
  cases reply with
  | done a => cases a <;> simp only [ListReply.along, ListAnswer.along, List.map_id', Option.map_id']
  | fault f => rfl
  | unsupported => rfl

namespace Collection

variable {h : V → W}

section Order

variable {compare : V → V → Ordering} {compare' : W → W → Ordering}
  (agree : ∀ a b, compare a b = compare' (h a) (h b))
include agree

theorem sort_map (vs : List V) : (sort compare vs).map h = sort compare' (vs.map h) :=
  List.map_mergeSort fun a _ b _ => congrArg (· != .gt) (agree a b)

theorem sortDescending_map (vs : List V) :
    (sortDescending compare vs).map h = sortDescending compare' (vs.map h) :=
  List.map_mergeSort fun a _ b _ => congrArg (· != .gt) (agree b a)

theorem insert_map (v : V) (vs : List V) :
    (insert compare v vs).map h = insert compare' (h v) (vs.map h) := by
  induction vs with
  | nil => rfl
  | cons w rest ih =>
    simp only [insert, List.map_cons, ← agree v w]
    cases compare v w with
    | lt => rfl
    | eq => rfl
    | gt => exact congrArg (h w :: ·) ih

theorem orderedSet_map (vs : List V) :
    (orderedSet compare vs).map h = orderedSet compare' (vs.map h) := by
  unfold orderedSet
  rw [List.foldl_map]
  exact (List.foldl_hom (List.map h) fun set v => (insert_map agree v set).symm).symm

theorem compareLex_map (vs ws : List V) :
    List.compareLex compare vs ws = List.compareLex compare' (vs.map h) (ws.map h) := by
  induction vs generalizing ws with
  | nil => cases ws <;> rfl
  | cons v vs ih =>
    cases ws with
    | nil => rfl
    | cons w ws => simp only [List.compareLex, List.map_cons, agree v w, ih ws]

end Order

theorem reduce?_map {choose : V → V → V} {choose' : W → W → W}
    (agree : ∀ a b, h (choose a b) = choose' (h a) (h b)) (vs : List V) :
    (reduce? choose vs).map h = reduce? choose' (vs.map h) := by
  cases vs with
  | nil => rfl
  | cons v rest =>
    simp only [reduce?, Option.map_some, List.map_cons, List.foldl_map]
    rw [List.foldl_hom h fun a b => (agree a b).symm]

theorem greatest?_map {compare : V → V → Ordering} {compare' : W → W → Ordering}
    (agree : ∀ a b, compare a b = compare' (h a) (h b)) (vs : List V) :
    (greatest? compare vs).map h = greatest? compare' (vs.map h) := by
  refine reduce?_map (fun a b => ?_) vs
  rw [agree]
  exact apply_ite h _ _ _

theorem least?_map {compare : V → V → Ordering} {compare' : W → W → Ordering}
    (agree : ∀ a b, compare a b = compare' (h a) (h b)) (vs : List V) :
    (least? compare vs).map h = least? compare' (vs.map h) := by
  refine reduce?_map (fun a b => ?_) vs
  rw [agree]
  exact apply_ite h _ _ _

section PartialOrder

variable {compare : V → V → Option Ordering} {compare' : W → W → Option Ordering}
  (agree : ∀ a b, compare a b = compare' (h a) (h b))
include agree

theorem foldGreatest?_map (vs : List V) :
    (foldGreatest? compare vs).map h = foldGreatest? compare' (vs.map h) := by
  refine reduce?_map (fun a b => ?_) vs
  rw [agree]
  exact apply_ite h _ _ _

theorem foldLeast?_map (vs : List V) :
    (foldLeast? compare vs).map h = foldLeast? compare' (vs.map h) := by
  refine reduce?_map (fun a b => ?_) vs
  rw [agree]
  exact apply_ite h _ _ _

theorem isSorted_map (vs : List V) : isSorted compare vs = isSorted compare' (vs.map h) := by
  induction vs with
  | nil => rfl
  | cons v rest ih =>
    cases rest with
    | nil => rfl
    | cons w rest =>
      simp only [isSorted, List.map_cons, agree v w, ih]

end PartialOrder

section Equality

variable {equal : V → V → Bool} {equal' : W → W → Bool}
  (agree : ∀ a b, equal a b = equal' (h a) (h b))
include agree

theorem dedupAfter_map (kept : V) (vs : List V) :
    (dedupAfter equal kept vs).map h = dedupAfter equal' (h kept) (vs.map h) := by
  induction vs generalizing kept with
  | nil => rfl
  | cons v rest ih =>
    simp only [dedupAfter, List.map_cons, ← agree v kept]
    split
    · exact ih kept
    · exact congrArg (h v :: ·) (ih v)

theorem dedup_map (vs : List V) : (dedup equal vs).map h = dedup equal' (vs.map h) := by
  cases vs with
  | nil => rfl
  | cons v rest => exact congrArg (h v :: ·) (dedupAfter_map agree v rest)

end Equality

section Digest

variable {d : Digest V} {d' : Digest W} (equal : ∀ a b, d.equal a b = d'.equal (h a) (h b))
  (hash : ∀ v, d.hash v = d'.hash (h v))
include equal hash

theorem Digest.contains_map (set : List V) (v : V) :
    d.contains set v = d'.contains (set.map h) (h v) := by
  simp only [contains, List.any_map, equal, hash]
  rfl

theorem Digest.insert_map (set : List V) (v : V) :
    (d.insert set v).map h = d'.insert (set.map h) (h v) := by
  simp only [insert, ← contains_map equal hash]
  split <;> rfl

theorem Digest.ofList_map (vs : List V) : (d.ofList vs).map h = d'.ofList (vs.map h) := by
  unfold ofList
  rw [List.foldl_map]
  exact (List.foldl_hom (List.map h) fun set v => (insert_map equal hash set v).symm).symm

end Digest

end Collection

end Nominal
