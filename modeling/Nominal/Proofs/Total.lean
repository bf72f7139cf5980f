import Mathlib.Algebra.BigOperators.Group.List.Basic
import Mathlib.Algebra.Ring.Int.Defs
import Nominal.Collection.Run
import Nominal.Proofs.Arithmetic

/-! Sums and products of lists. A wrapper hands the values of a list to the wrapped type,
which totals them by itself. The other way is to start from the wrapper's own zero or one
and to apply the wrapper's own operator to one item after another. Both ways come to the
same answer, the same fault included, over every type that totals a list with its
operators from left to right. -/

namespace Nominal

variable {V : Type}

inductive Total where
  | sum
  | product

namespace Total

def operator : Total → Operator
  | .sum => .add
  | .product => .mul

def landmark : Total → Landmark
  | .sum => .zero
  | .product => .one

def exact : Total → List Int → Int
  | .sum => List.sum
  | .product => List.prod

def step : Total → ListStep V
  | .sum => .sum
  | .product => .product

def stepRef : Total → ListStep V
  | .sum => .sumRef
  | .product => .productRef

def of? (t : Total) (I : Interface V) : Option (List V → Except Fault V) :=
  match t with
  | .sum => I.sum?
  | .product => I.product?

def ofRef? (t : Total) (I : Interface V) : Option (List V → Except Fault V) :=
  match t with
  | .sum => I.sumRef?
  | .product => I.productRef?

theorem not_divides (t : Total) : ¬ t.operator.Divides := by
  cases t <;> decide

theorem foldl_exact (t : Total) (ns : List Int) :
    ns.foldl t.operator.exact (t.exact []) = t.exact ns := by
  cases t with
  | sum => exact List.sum_eq_foldl.symm
  | product => exact List.prod_eq_foldl.symm

theorem exact_perm (t : Total) {ns ms : List Int} (rearranged : ns.Perm ms) :
    t.exact ns = t.exact ms := by
  cases t with
  | sum => exact rearranged.sum_eq
  | product => exact rearranged.prod_eq

end Total

namespace Arithmetic

def start (A : Arithmetic V) : Total → V
  | .sum => A.zero
  | .product => A.one

def total (A : Arithmetic V) (t : Total) (vs : List V) : Except Fault V :=
  vs.foldlM (A.apply t.operator) (A.start t)

end Arithmetic

/-- An interface totals lists with an arithmetic, whether it uses the items up or not. -/
structure Interface.Totals (I : Interface V) (A : Arithmetic V) : Prop where
  owned : ∀ t : Total, t.of? I = some (A.total t)
  seen : ∀ t : Total, t.ofRef? I = some (A.total t)

def Total.reply : Except Fault V → ListReply V
  | .ok v => .done (.total v)
  | .error fault => .fault fault

theorem Total.reply_eq_done_iff (x : Except Fault V) (v : V) :
    reply x = .done (.total v) ↔ x = .ok v := by
  cases x <;> simp [reply]

theorem Total.reply_eq_fault_iff (x : Except Fault V) (fault : Fault) :
    reply x = .fault fault ↔ x = .error fault := by
  cases x <;> simp [reply]

namespace Wrapped

variable {tag : Tag}

def accumulate (I : Interface V) (op : Operator) (w : Wrapped tag V) :
    List (Wrapped tag V) → ListReply V
  | [] => .done (.total w.value)
  | x :: rest => match perform I w (.operate op (.wrapped x.value)) with
    | (.done _, next) => accumulate I op next rest
    | (.fault fault, _) => .fault fault
    | (.unsupported, _) => .unsupported

def totalByItems (I : Interface V) (t : Total) (ws : List (Wrapped tag V)) : ListReply V :=
  match landmark? (I.wrap tag) t.landmark with
  | some e => accumulate I t.operator e.value ws
  | none => .unsupported

theorem foldlM_combine (g : V → V → Except Fault V) (ws : List (Wrapped tag V)) (w : Wrapped tag V) :
    ws.foldlM (combine g) w = ((ws.map value).foldlM g w.value).map Wrapped.mk := by
  induction ws generalizing w with
  | nil => rfl
  | cons x rest ih =>
    simp only [List.map_cons, List.foldlM_cons, combine]
    cases g w.value x.value with
    | ok v => exact ih ⟨v⟩
    | error fault => rfl

end Wrapped

namespace Interface

variable {I : Interface V} {A : Arithmetic V} {tag : Tag}

theorem totals_integer (f : IntFormat) : (integer f).Totals (.plain f) := by
  constructor <;> intro t <;> cases t <;> rfl

theorem totals_wrapping (f : IntFormat) : (wrapping f).Totals (.wrapping f) := by
  constructor <;> intro t <;> cases t <;> rfl

namespace Totals

theorem total_wrap (A : Arithmetic V) (tag : Tag) (t : Total) :
    (A.wrap tag).total t = Wrapped.gather (A.total t) := by
  funext ws
  have items := Wrapped.foldlM_combine (A.apply t.operator) ws ((A.wrap tag).start t)
  cases t <;> exact items

theorem wrap (totals : I.Totals A) (named : tag.name?.isSome = true) :
    (I.wrap tag).Totals (A.wrap tag) := by
  obtain ⟨name, named⟩ := Option.isSome_iff_exists.mp named
  have handed (total? : Option (List V → Except Fault V)) (t : Total)
      (has : total? = some (A.total t)) :
      tag.forward total? (fun _ => Wrapped.gather) = some ((A.wrap tag).total t) := by
    rw [has, Tag.forward_named named, total_wrap]
  constructor
  · intro t
    cases t with
    | sum => exact handed _ .sum (totals.owned .sum)
    | product => exact handed _ .product (totals.owned .product)
  · intro t
    cases t with
    | sum => exact handed _ .sum (totals.seen .sum)
    | product => exact handed _ .product (totals.seen .product)

theorem nest (totals : I.Totals A) {tags : List Tag} (named : ∀ t ∈ tags, t.name?.isSome = true) :
    (I.nest tags).Totals (A.nest tags) := by
  induction tags with
  | nil => exact totals
  | cons tag tags ih =>
    have inner := ih fun t ht => named t (List.mem_cons_of_mem _ ht)
    exact inner.wrap (named tag List.mem_cons_self)

end Totals

end Interface

namespace Wrapped

variable {I : Interface V} {A : Arithmetic V} {tag : Tag}

theorem totalise_gather (total : List V → Except Fault V) (ws : List (Wrapped tag V)) :
    totalise ws (some (gather total)) = (Total.reply (total (ws.map value)), ws) := by
  simp only [totalise, gather]
  cases total (ws.map value) <;> rfl

theorem totalise_total {t : Total}
    {total? : Option (List (Wrapped tag V) → Except Fault (Wrapped tag V))}
    (has : total? = some ((A.wrap tag).total t)) (ws : List (Wrapped tag V)) :
    totalise ws total? = (Total.reply (A.total t (ws.map value)), ws) := by
  rw [has, Interface.Totals.total_wrap, totalise_gather]

theorem performList_total (totals : I.Totals A) (named : tag.name?.isSome = true) (t : Total)
    (ws : List (Wrapped tag V)) :
    performList I ws t.step = (Total.reply (A.total t (ws.map value)), ws) := by
  have outer := (totals.wrap named).owned t
  cases t <;> exact totalise_total outer ws

theorem performList_totalRef (totals : I.Totals A) (named : tag.name?.isSome = true) (t : Total)
    (ws : List (Wrapped tag V)) :
    performList I ws t.stepRef = (Total.reply (A.total t (ws.map value)), ws) := by
  have outer := (totals.wrap named).seen t
  cases t <;> exact totalise_total outer ws

theorem accumulate_eq (computes : I.Computes A) (named : tag.name?.isSome = true) (op : Operator)
    (w : Wrapped tag V) (ws : List (Wrapped tag V)) :
    accumulate I op w ws = Total.reply ((ws.map value).foldlM (A.apply op) w.value) := by
  obtain ⟨name, named⟩ := Option.isSome_iff_exists.mp named
  induction ws generalizing w with
  | nil => rfl
  | cons x rest ih =>
    have here := computes.perform_operate named w op (.wrapped x.value)
    simp only [accumulate, here, List.map_cons, List.foldlM_cons, Operand.contribution]
    cases A.apply op w.value x.value with
    | ok v => exact ih ⟨v⟩
    | error fault => rfl

theorem totalByItems_eq (computes : I.Computes A) (named : tag.name?.isSome = true) (t : Total)
    (ws : List (Wrapped tag V)) : totalByItems I t ws = Total.reply (A.total t (ws.map value)) := by
  have outer := computes.wrap named
  obtain ⟨isZero, hasZero⟩ := outer.zero
  obtain ⟨isOne, hasOne⟩ := outer.one
  cases t with
  | sum =>
    simp only [totalByItems, Total.landmark, landmark?, hasZero, accumulate_eq computes named]
    rfl
  | product =>
    simp only [totalByItems, Total.landmark, landmark?, hasOne, accumulate_eq computes named]
    rfl

end Wrapped

end Nominal
