import Nominal.Catalogue
import Nominal.Proofs.Script.Mirror

/-! Wrappers inside wrappers, to any depth. A nest puts a value under a list of tags,
and its interface is the wrapped one wrapped again for every tag. Seen through to the
core, a nest acts as the type at its core does, and as long as all tags have names it
has the same steps, those apart that are methods of a single wrapper. -/

namespace Nominal

variable {V : Type}

/-- A value under tags, the first of them outermost. -/
def Nest : List Tag → Type → Type
  | [], V => V
  | tag :: tags, V => Wrapped tag (Nest tags V)

def Nest.core : (tags : List Tag) → Nest tags V → V
  | [], v => v
  | _ :: tags, w => core tags w.value

def Interface.nest (I : Interface V) : (tags : List Tag) → Interface (Nest tags V)
  | [] => I
  | tag :: tags => (I.nest tags).wrap tag

example : Catalogue.outer.interface =
    (Interface.integer .int32).nest [Catalogue.outerTag, Catalogue.meterTag] := rfl

/-- The steps that reach the wrapped value through operations which wrappers forward,
and so reach it through any number of wrappers. -/
def Step.reachesCore : Step V → Bool
  | .map .abs | .edit _ | .measure _ | .checked _ _ | .saturating _ _ => false
  | _ => true

theorem Interface.Mirrors.nest {W : Type} {g : V → W} {I : Interface V} {J : Interface W}
    (m : I.Mirrors g J) (tags : List Tag) :
    (I.nest tags).Mirrors (fun w => g (Nest.core tags w)) J := by
  induction tags with
  | nil => exact m
  | cons tag tags ih => exact ih.unwrap tag

namespace Wrapped

theorem offers_wrap (tag : Tag) (I : Interface V) {inner : Tag} (named : inner.name?.isSome = true)
    {W : Type} (s : Step W) (reaches : s.reachesCore = true) :
    offers tag (I.wrap inner) s = offers tag I s := by
  cases s with
  | map h =>
    cases h with
    -- The absolute value is a method of the wrapped type, which no wrapper takes over.
    | abs => cases reaches
    | _ => simp [offers, Interface.wrap, Tag.isSome_forward, named]
  | look how => cases how <;> rfl
  | relate r rhs =>
    cases r <;> simp [offers, Interface.wrap, Tag.isSome_forward, named]
  | move d moment =>
    cases moment with
    | before =>
      simp [offers, Interface.moveMethod?, Tag.isSome_forward, isSome_step?_wrap, named]
      rfl
    | after => simp [offers, Interface.moveMethod?, Tag.isSome_forward, isSome_step?_wrap, named]
  | chain moves =>
    simp [offers, Interface.moveMethod?, Tag.isSome_forward, isSome_step?_wrap, named]
  | bareStep d => simp [offers, isSome_step?_wrap, named]
  | step d => simp [offers, isSome_step?_wrap, named]
  | landmark l => cases l <;> simp [offers, landmark?, Interface.wrap, Tag.isSome_forward, named]
  | isLandmark l => cases l <;> simp [offers, landmark?, Interface.wrap, Tag.isSome_forward, named]
  | edit e => cases reaches
  | measure m => cases reaches
  | checked op rhs => cases reaches
  | saturating op rhs => cases reaches
  | _ => simp [offers, Interface.wrap, Tag.isSome_forward, named]

theorem offers_nest (tag : Tag) (I : Interface V) {tags : List Tag}
    (named : ∀ t ∈ tags, t.name?.isSome = true) {W : Type} (s : Step W)
    (reaches : s.reachesCore = true) : offers tag (I.nest tags) s = offers tag I s := by
  induction tags with
  | nil => rfl
  | cons inner tags ih =>
    calc offers tag ((I.nest tags).wrap inner) s
      _ = offers tag (I.nest tags) s := offers_wrap tag _ (named inner List.mem_cons_self) s reaches
      _ = offers tag I s := ih fun t ht => named t (List.mem_cons_of_mem _ ht)

theorem run_nest (tag : Tag) (I : Interface V) {tags : List Tag}
    (named : ∀ t ∈ tags, t.name?.isSome = true) (w : Wrapped tag (Nest tags V))
    (script : List (Step (Nest tags V))) (nameless : ∀ s ∈ script, s.showsNoName = true)
    (reaches : ∀ s ∈ script, s.reachesCore = true) :
    (run (I.nest tags) w script).map (Entry.along (Nest.core tags)) =
      run I (⟨Nest.core tags w.value⟩ : Wrapped tag V) (script.map (Step.along (Nest.core tags))) :=
  run_along ((Interface.Mirrors.refl I).nest tags) w script nameless
    fun s hs => offers_nest tag I named s (reaches s hs)

end Wrapped

end Nominal
