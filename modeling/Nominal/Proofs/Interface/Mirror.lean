import Nominal.Wrapped

/-! Interfaces that act alike. One interface mirrors another along a function of their
values when every operation that both have gives matching results on matching values.
Whatever wraps the values, under whatever tags, keeps this. -/

namespace Nominal

variable {V W : Type} {α β γ δ : Type}

/-- Two optional things that are related whenever both are there. -/
def Alike (r : α → β → Prop) (a? : Option α) (b? : Option β) : Prop :=
  ∀ a ∈ a?, ∀ b ∈ b?, r a b

/-- Every operation that both interfaces have gives matching results. -/
structure Interface.Mirrors (g : V → W) (I : Interface V) (J : Interface W) : Prop where
  initial : Alike (fun v v' => g v = v') I.initial? J.initial?
  display : Alike (fun write write' => ∀ s v, write s v = write' s (g v)) I.display? J.display?
  equal : Alike (fun equal equal' => ∀ a b, equal a b = equal' (g a) (g b)) I.equal? J.equal?
  partialCompare : Alike (fun compare compare' => ∀ a b, compare a b = compare' (g a) (g b))
    I.partialCompare? J.partialCompare?
  compare : Alike (fun compare compare' => ∀ a b, compare a b = compare' (g a) (g b))
    I.compare? J.compare?
  hash : Alike (fun hash hash' => ∀ v, hash v = hash' (g v)) I.hash? J.hash?
  neg : Alike (fun neg neg' => ∀ v, (neg v).map g = neg' (g v)) I.neg? J.neg?
  operate : ∀ op, Alike (fun act act' => ∀ a b, (act a b).map g = act' (g a) (g b))
    (I.operate? op) (J.operate? op)
  assign : ∀ op, Alike (fun act act' => ∀ a b, (act a b).map g = act' (g a) (g b))
    (I.assign? op) (J.assign? op)
  zero : Alike (fun e e' => g e.value = e'.value ∧ ∀ v, e.test v = e'.test (g v)) I.zero? J.zero?
  one : Alike (fun e e' => g e.value = e'.value ∧ ∀ v, e.test v = e'.test (g v)) I.one? J.one?
  bounds : Alike (fun b b' => g b.least = b'.least ∧ g b.greatest = b'.greatest)
    I.bounds? J.bounds?
  abs : Alike (fun abs abs' => ∀ v, (abs v).map g = abs' (g v)) I.abs? J.abs?
  text : Alike (fun view view' => (∀ v, view.text v = view'.text (g v)) ∧
    ∀ t, g (view.ofText t) = view'.ofText t) I.text? J.text?
  checked : ∀ op, Alike (fun act act' => ∀ a b, (act a b).map g = act' (g a) (g b))
    (I.checked? op) (J.checked? op)
  saturating : ∀ op, Alike (fun act act' => ∀ a b, g (act a b) = act' (g a) (g b))
    (I.saturating? op) (J.saturating? op)

theorem Alike.map {r : α → β → Prop} {r' : γ → δ → Prop} {a? : Option α} {b? : Option β}
    {h : α → γ} {h' : β → δ} (alike : Alike r a? b?) (keeps : ∀ a b, r a b → r' (h a) (h' b)) :
    Alike r' (a?.map h) (b?.map h') := by
  intro c hc d hd
  obtain ⟨a, ha, rfl⟩ := Option.map_eq_some_iff.mp hc
  obtain ⟨b, hb, rfl⟩ := Option.map_eq_some_iff.mp hd
  exact keeps a b (alike a ha b hb)

theorem Alike.together {r : α → β → Prop} {a? : Option α} {b? : Option β} (alike : Alike r a? b?)
    (present : a?.isSome = b?.isSome) :
    (a? = none ∧ b? = none) ∨ ∃ a b, a? = some a ∧ b? = some b ∧ r a b := by
  cases a? with
  | none =>
    cases b? with
    | none => exact .inl ⟨rfl, rfl⟩
    | some b => cases present
  | some a =>
    obtain ⟨b, rfl⟩ := Option.isSome_iff_exists.mp present.symm
    exact .inr ⟨a, b, rfl, rfl, alike a rfl b rfl⟩

theorem Tag.mem_forward {tag : Tag} {operation? : Option α} {lift : Text → α → β} {b : β} :
    b ∈ tag.forward operation? lift ↔
      ∃ name, tag.name? = some name ∧ ∃ act ∈ operation?, lift name act = b := by
  unfold Tag.forward
  cases tag.name? <;> cases operation? <;> simp

theorem Alike.forward {r : α → β → Prop} {r' : γ → δ → Prop} {tag tag' : Tag} {a? : Option α}
    {b? : Option β} {lift : Text → α → γ} {lift' : Text → β → δ} (alike : Alike r a? b?)
    (keeps : ∀ name name' a b, r a b → r' (lift name a) (lift' name' b)) :
    Alike r' (tag.forward a? lift) (tag'.forward b? lift') := by
  intro c hc d hd
  obtain ⟨name, -, a, ha, rfl⟩ := Tag.mem_forward.mp hc
  obtain ⟨name', -, b, hb, rfl⟩ := Tag.mem_forward.mp hd
  exact keeps name name' a b (alike a ha b hb)

theorem Alike.forward_left {r : α → β → Prop} {r' : γ → β → Prop} {tag : Tag}
    {a? : Option α} {b? : Option β} {lift : Text → α → γ} (alike : Alike r a? b?)
    (keeps : ∀ name a b, r a b → r' (lift name a) b) : Alike r' (tag.forward a? lift) b? := by
  intro c hc b hb
  obtain ⟨name, -, a, ha, rfl⟩ := Tag.mem_forward.mp hc
  exact keeps name a b (alike a ha b hb)

namespace Wrapped

def along {tag : Tag} (tag' : Tag) (g : V → W) (w : Wrapped tag V) : Wrapped tag' W := ⟨g w.value⟩

theorem map_mk_along {tag tag' : Tag} {g : V → W} {x : Except Fault V} {x' : Except Fault W}
    (agree : x.map g = x') :
    (x.map (Wrapped.mk : V → Wrapped tag V)).map (along tag' g) = x'.map Wrapped.mk := by
  subst agree
  cases x <;> rfl

theorem map_value_map_mk {tag : Tag} {g : V → W} {x : Except Fault V}
    {x' : Except Fault W} (agree : x.map g = x') :
    (x.map (Wrapped.mk : V → Wrapped tag V)).map (fun w => g w.value) = x' := by
  subst agree
  cases x <;> rfl

end Wrapped

theorem Interface.mem_step? {I : Interface V} {step : Direction → V → Except Fault V}
    (has : step ∈ I.step?) :
    ∃ one ∈ I.one?, ∃ up ∈ I.assign? .add, ∃ down ∈ I.assign? .sub,
      (∀ v, step .forward v = up v one.value) ∧ ∀ v, step .backward v = down v one.value := by
  unfold step? at has
  split at has
  · rename_i one up down hone hup hdown
    cases has
    exact ⟨one, hone, up, hup, down, hdown, fun _ => rfl, fun _ => rfl⟩
  · cases has

namespace Interface.Mirrors

variable {g : V → W} {I : Interface V} {J : Interface W}

theorem wrap (m : I.Mirrors g J) (tag tag' : Tag) :
    (I.wrap tag).Mirrors (Wrapped.along tag' g) (J.wrap tag') where
  initial := m.initial.map fun _ _ agree => congrArg Wrapped.mk agree
  display := m.display.forward fun _ _ _ _ agree s w => agree s w.value
  equal := m.equal.forward fun _ _ _ _ agree a b => agree a.value b.value
  partialCompare := m.partialCompare.forward fun _ _ _ _ agree a b => agree a.value b.value
  compare := m.compare.forward fun _ _ _ _ agree a b => agree a.value b.value
  hash := m.hash.forward fun _ _ _ _ agree w => agree w.value
  neg := m.neg.forward fun _ _ _ _ agree w => Wrapped.map_mk_along (agree w.value)
  operate op := (m.operate op).forward fun _ _ _ _ agree a b =>
    Wrapped.map_mk_along (agree a.value b.value)
  assign op := (m.assign op).forward fun _ _ _ _ agree a b =>
    Wrapped.map_mk_along (agree a.value b.value)
  zero := m.zero.forward fun _ _ _ _ agree =>
    ⟨congrArg Wrapped.mk agree.1, fun w => agree.2 w.value⟩
  one := m.one.forward fun _ _ _ _ agree =>
    ⟨congrArg Wrapped.mk agree.1, fun w => agree.2 w.value⟩
  bounds := m.bounds.forward fun _ _ _ _ agree =>
    ⟨congrArg Wrapped.mk agree.1, congrArg Wrapped.mk agree.2⟩
  abs := by simp [Interface.wrap, Alike]
  text := by simp [Interface.wrap, Alike]
  checked op := by simp [Interface.wrap, Alike]
  saturating op := by simp [Interface.wrap, Alike]

theorem refl (I : Interface V) : I.Mirrors (fun v => v) I := by
  have map_same (x : Except Fault V) : x.map (fun v => v) = x := by cases x <;> rfl
  constructor <;> intros <;> intro a ha b hb <;> obtain rfl := Option.mem_unique ha hb <;>
    simp [map_same]

theorem unwrap (m : I.Mirrors g J) (tag : Tag) :
    (I.wrap tag).Mirrors (fun w => g w.value) J where
  initial := by simpa [Interface.wrap, Alike] using m.initial
  display := m.display.forward_left fun _ _ _ agree s w => agree s w.value
  equal := m.equal.forward_left fun _ _ _ agree a b => agree a.value b.value
  partialCompare := m.partialCompare.forward_left fun _ _ _ agree a b => agree a.value b.value
  compare := m.compare.forward_left fun _ _ _ agree a b => agree a.value b.value
  hash := m.hash.forward_left fun _ _ _ agree w => agree w.value
  neg := m.neg.forward_left fun _ _ _ agree w => Wrapped.map_value_map_mk (agree w.value)
  operate op := (m.operate op).forward_left fun _ _ _ agree a b =>
    Wrapped.map_value_map_mk (agree a.value b.value)
  assign op := (m.assign op).forward_left fun _ _ _ agree a b =>
    Wrapped.map_value_map_mk (agree a.value b.value)
  zero := m.zero.forward_left fun _ _ _ agree => ⟨agree.1, fun w => agree.2 w.value⟩
  one := m.one.forward_left fun _ _ _ agree => ⟨agree.1, fun w => agree.2 w.value⟩
  bounds := m.bounds.forward_left fun _ _ _ agree => agree
  abs := by simp [Interface.wrap, Alike]
  text := by simp [Interface.wrap, Alike]
  checked op := by simp [Interface.wrap, Alike]
  saturating op := by simp [Interface.wrap, Alike]

theorem step (m : I.Mirrors g J) :
    Alike (fun step step' => ∀ d v, (step d v).map g = step' d (g v)) I.step? J.step? := by
  intro step hs step' hs'
  obtain ⟨one, hone, up, hup, down, hdown, ahead, back⟩ := mem_step? hs
  obtain ⟨one', hone', up', hup', down', hdown', ahead', back'⟩ := mem_step? hs'
  have unit := (m.one one hone one' hone').1
  intro d v
  cases d with
  | forward => rw [ahead, ahead', m.assign .add up hup up' hup', unit]
  | backward => rw [back, back', m.assign .sub down hdown down' hdown', unit]

theorem moveMethod (m : I.Mirrors g J) (tag tag' : Tag) :
    Alike (fun move move' => ∀ d w, (move d w).map (Wrapped.along tag' g) =
      move' d (Wrapped.along tag' g w)) (I.moveMethod? tag) (J.moveMethod? tag') :=
  m.step.forward fun _ _ _ _ agree d w => Wrapped.map_mk_along (agree d w.value)

end Interface.Mirrors

end Nominal
