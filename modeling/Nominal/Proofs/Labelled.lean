import Nominal.Collection.Run
import Nominal.Proofs.Nest
import Nominal.Proofs.Text.Joined

/-! Wrappers as they are shown for inspection. A wrapper puts its name and a pair of parentheses
around what its value shows under the same specification, and takes nothing of the specification
for itself but the layout. In one line an empty name is made up for by a comma. In several lines
whatever the value shows is moved to the right, line by line, and once more by every further
wrapper around it. -/

namespace Nominal

open Text

namespace Text

def titled (lines : Bool) (name part : Text) : Text :=
  if lines then name ++ "(\n".toList ++ indented part ++ ",\n)".toList
  else name ++ "(".toList ++ part ++ (if name = [] then ",".toList else []) ++ ")".toList

def bracketed (lines : Bool) (opening closing : Char) (parts : List Text) : Text :=
  if lines ∧ parts ≠ [] then
    opening :: '\n' :: parts.flatMap (fun part => indented part ++ ",\n".toList) ++ [closing]
  else opening :: join ", ".toList parts ++ [closing]

end Text

namespace Spec

theorem enclose_eq (s : Spec) (opening closing : Char) (parts : List Text) :
    s.enclose opening closing parts = bracketed s.alternate opening closing parts := by
  cases parts with
  | nil => simp [enclose, bracketed, join]
  | cons part parts =>
    rw [enclose, bracketed, List.isEmpty_cons, if_neg Bool.false_ne_true]
    cases s.alternate with
    | false => rfl
    | true =>
      simp only [if_true, funext ownLines_eq]
      rfl

theorem labelled_eq (s : Spec) (name part : Text) :
    s.labelled name part = titled s.alternate name part := by
  rw [labelled, enclose_eq, bracketed, titled]
  cases name <;> cases s.alternate <;> simp [join]

end Spec

variable {V : Type} {I : Interface V} {debug : Spec → V → Text}

theorem Interface.debug?_nest (has : I.debug? = some debug) {tags : List Tag} {names : List Text}
    (named : tags.map Tag.name? = names.map some) :
    (I.nest tags).debug? =
      some fun s w => names.foldr (titled s.alternate) (debug s (Nest.core tags w)) := by
  -- From the outside in: a wrapper titles what the wrappers inside it have titled already.
  induction tags generalizing names with
  | nil =>
    obtain rfl : names = [] := List.map_eq_nil_iff.mp named.symm
    exact has
  | cons tag tags ih =>
    obtain ⟨name, names, rfl⟩ : ∃ name rest, names = name :: rest :=
      List.exists_cons_of_ne_nil fun none => by simp [none] at named
    obtain ⟨here, later⟩ := List.cons.inj named
    rw [nest, debug?_wrap here (ih later)]
    simp only [Spec.labelled_eq]
    rfl

namespace Wrapped

def inspected (name : Text) (names : List Text) (debug : Spec → V → Text) {tag : Tag}
    {tags : List Tag} (s : Spec) (w : Wrapped tag (Nest tags V)) : Text :=
  titled s.alternate name
    (names.foldr (titled s.alternate) (debug s (Nest.core tags w.value)))

/-- The name is written as it is, and what is wrapped is shown under the same specification. A
list shows its items in brackets. A specification with a number out of range stops with a fault. -/
theorem debug_titled (has : I.debug? = some debug) (tag : Tag) (name : Text)
    (named : tag.name? = some name) (tags : List Tag) (names : List Text)
    (inside : tags.map Tag.name? = names.map some) :
    (∀ (s : Spec) (w : Wrapped tag (Nest tags V)), perform (I.nest tags) w (.debug s) =
        if s.InRange then answer (.text (inspected name names debug s w)) w
        else (.fault .specOutOfRange, w)) ∧
      ∀ (s : Spec) (ws : List (Wrapped tag (Nest tags V))),
        performList (I.nest tags) ws (.debug s) =
          if s.InRange then
            (.done (.text (bracketed s.alternate '[' ']' (ws.map (inspected name names debug s)))),
              ws)
          else (.fault .specOutOfRange, ws) := by
  have all : (tag :: tags).map Tag.name? = (name :: names).map some := congrArg₂ List.cons named inside
  have shown : ((I.nest tags).wrap tag).debug? = some (inspected name names debug) :=
    Interface.debug?_nest has all
  constructor
  · intro s w
    rw [perform, shown, write_some]
  · intro s ws
    rw [performList, shown, Option.map_some, inscribe_some, Spec.enclose_eq]

/-- A name with a line break in it inside another wrapper, with zeros that reach the number and
nothing else, and an empty name alone and in a list. -/
theorem debug_titled_odd :
    let odd := "Größe \"q\"\n\x7b\x7d".toList
    let w : Wrapped Catalogue.outerTag (Nest [Catalogue.oddTag] (FixedInt .int64)) :=
      ⟨⟨FixedInt.clamp .int64 (-5)⟩⟩
    let seven : Wrapped Catalogue.anonTag (Nest [] (FixedInt .int64)) := ⟨FixedInt.clamp .int64 7⟩
    let zeros : Spec := { alternate := true, zero := true, width := 4 }
    (Interface.integer .int64).debug? = some FixedInt.debug ∧
      Catalogue.outerTag.name? = some "Outer".toList ∧
      [Catalogue.oddTag].map Tag.name? = [odd].map some ∧ Catalogue.anonTag.name? = some [] ∧
      perform ((Interface.integer .int64).nest [Catalogue.oddTag]) w (.debug zeros) =
        answer (.text (titled true "Outer".toList (titled true odd "-005".toList))) w ∧
      titled true "Outer".toList (titled true odd "-005".toList) =
        "Outer(\n    Größe \"q\"\n    \x7b\x7d(\n        -005,\n    ),\n)".toList ∧
      perform (Interface.integer .int64) seven (.debug Spec.plain) =
        answer (.text "(7,)".toList) seven ∧
      performList (Interface.integer .int64) [seven, seven] (.debug Spec.plain) =
        (.done (.text "[(7,), (7,)]".toList), [seven, seven]) := by
  intro odd w seven zeros
  have has : (Interface.integer .int64).debug? = some FixedInt.debug := rfl
  obtain ⟨nested, -⟩ := debug_titled has Catalogue.outerTag "Outer".toList rfl [Catalogue.oddTag]
    [odd] rfl
  obtain ⟨single, several⟩ := debug_titled has Catalogue.anonTag [] rfl [] [] rfl
  have number : FixedInt.debug zeros (FixedInt.clamp .int64 (-5)) = "-005".toList := by
    simp only [zeros]
    rfl
  have plain : FixedInt.debug Spec.plain (FixedInt.clamp .int64 7) = "7".toList := rfl
  have alone : inspected [] [] FixedInt.debug Spec.plain seven = "(7,)".toList := by
    show titled false [] (FixedInt.debug Spec.plain (FixedInt.clamp .int64 7)) = _
    rw [plain]
    rfl
  refine ⟨has, rfl, rfl, rfl, ?_, by rfl, ?_, ?_⟩
  · rw [nested zeros w, if_pos (by decide), ← number]
    rfl
  · rw [← alone]
    exact (single Spec.plain seven).trans (if_pos (by decide))
  · refine (several Spec.plain [seven, seven]).trans ((if_pos (by decide)).trans ?_)
    rw [List.map_cons, List.map_cons, alone]
    rfl

end Wrapped

end Nominal
