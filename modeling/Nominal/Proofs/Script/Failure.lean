import Nominal.Proofs.Script.Run

/-! Failing steps. A step fails when it stops with a fault, when the wrapper does not
have it, when a text is refused or when a checked operator has no result. A failing
step writes nothing, so the rest of a run cannot tell whether it was there. A chain of
moves is no failing step, for it keeps the moves before its fault; to the rest of a
run it is the chain of just these moves. -/

namespace Nominal

variable {V : Type}

def Reply.fails : Reply V → Bool
  | .fault _ | .unsupported | .done .absent | .done (.rejected _) => true
  | .done _ => false

def Step.isChain : Step V → Bool
  | .chain _ => true
  | _ => false

/-- Whether a step with the given reply counts as failing. -/
def Step.fails (s : Step V) (reply : Reply V) : Bool := !s.isChain && reply.fails

namespace Wrapped

variable {tag : Tag}

def Intact (w : Wrapped tag V) (o : Outcome tag V) : Prop := o.1.fails = true → o.2 = w

theorem intact_same (w : Wrapped tag V) (reply : Reply V) : Intact w (reply, w) := fun _ => rfl

theorem intact_answer {a : Answer V} (succeeds : (Reply.done a).fails = false)
    (w next : Wrapped tag V) : Intact w (answer a next) := by
  intro fails
  simp [answer, succeeds] at fails

theorem intact_settle (w : Wrapped tag V) (next? : Option (Except Fault (Wrapped tag V))) :
    Intact w (settle w next?) := by
  match next? with
  | none => exact intact_same w _
  | some (.error _) => exact intact_same w _
  | some (.ok next) => exact intact_answer rfl w next

theorem intact_inform (w : Wrapped tag V) (answer? : Option (Answer V)) :
    Intact w (inform w answer?) := by
  cases answer? with
  | none => exact intact_same w _
  | some a => exact intact_same w _

theorem intact_write (s : Spec) (w : Wrapped tag V)
    (text? : Option (Spec → Wrapped tag V → Text)) : Intact w (write s w text?) := by
  unfold write
  split
  · exact intact_same w _
  · split
    · exact intact_same w _
    · exact intact_same w _

theorem intact_look (I : Interface V) (w : Wrapped tag V) (how : Reading) :
    Intact w (look I w how) := by
  cases how with
  | borrow => exact intact_same w _
  | extract => exact intact_same w _
  | clone => exact intact_inform w _
  | copy => exact intact_inform w _

theorem intact_checked (I : Interface V) (op : Operator) (rhs : Operand V) (w : Wrapped tag V) :
    Intact w (checked I op rhs w) := by
  unfold checked
  split
  · exact intact_same w _
  · split
    · exact intact_same w _
    · exact intact_answer rfl w _

theorem intact_moveBy (I : Interface V) (d : Direction) (moment : Moment) (w : Wrapped tag V) :
    Intact w (moveBy I d moment w) := by
  unfold moveBy
  split
  · exact intact_same w _
  · split
    · exact intact_answer rfl w _
    · exact intact_same w _
  · split
    · split
      · exact intact_answer rfl w _
      · exact intact_same w _
    · exact intact_same w _

theorem intact_parse (I : Interface V) (input : Text) (w : Wrapped tag V) :
    Intact w (parse I input w) := by
  unfold parse
  split
  · exact intact_same w _
  · split
    · exact intact_answer rfl w _
    · exact intact_same w _

theorem intact_perform (I : Interface V) (w : Wrapped tag V) (s : Step V)
    (single : s.isChain = false) : Intact w (perform I w s) := by
  -- Only the steps that write can lose the state, and all of those settle or answer.
  cases s with
  | wrap v => exact intact_answer rfl w _
  | assign v => exact intact_answer rfl w _
  | replace v => exact intact_answer rfl w _
  | take =>
    simp only [perform]
    split
    · exact intact_same w _
    · exact intact_answer rfl w _
  | copyThenAssign v =>
    simp only [perform]
    split
    · exact intact_answer rfl w _
    · exact intact_same w _
  | look how => exact intact_look I w how
  | measure m => exact intact_inform w _
  | relate r rhs => exact intact_inform w _
  | partialCompare rhs => exact intact_inform w _
  | compare v => exact intact_inform w _
  | hash => exact intact_inform w _
  | isLandmark l => exact intact_inform w _
  | display s => exact intact_write s w _
  | debug s => exact intact_write s w _
  | move d moment => exact intact_moveBy I d moment w
  | checked op rhs => exact intact_checked I op rhs w
  | parse input => exact intact_parse I input w
  | chain moves => cases single
  | unavailable => exact intact_same w _
  | reset => exact intact_settle w _
  | map g => exact intact_settle w _
  | edit e => exact intact_settle w _
  | operate op rhs => exact intact_settle w _
  | compound op rhs => exact intact_settle w _
  | negate => exact intact_settle w _
  | step d => exact intact_settle w _
  | bareStep d => exact intact_settle w _
  | extremum e v => exact intact_settle w _
  | clamp low high => exact intact_settle w _
  | saturating op rhs => exact intact_settle w _
  | landmark l => exact intact_settle w _
  | bound b => exact intact_settle w _

theorem perform_of_fails {I : Interface V} {w : Wrapped tag V} {s : Step V}
    (fails : s.fails (perform I w s).1 = true) : (perform I w s).2 = w := by
  simp only [Step.fails, Bool.and_eq_true, Bool.not_eq_true'] at fails
  obtain ⟨single, fails⟩ := fails
  exact intact_perform I w s single fails

/-- The steps of a script beside their entries, without the failing ones. -/
def kept (I : Interface V) (w : Wrapped tag V) (script : List (Step V)) :
    List (Step V × Entry V) :=
  (script.zip (run I w script)).filter fun p => !p.1.fails p.2.reply

theorem kept_of_fails {I : Interface V} {w : Wrapped tag V} {s : Step V}
    (fails : s.fails (perform I w s).1 = true) (rest : List (Step V)) :
    kept I w (s :: rest) = kept I w rest := by
  simp [kept, run, fails, perform_of_fails fails]

theorem kept_of_succeeds {I : Interface V} {w : Wrapped tag V} {s : Step V}
    (succeeds : s.fails (perform I w s).1 = false) (rest : List (Step V)) :
    kept I w (s :: rest) =
      (s, ⟨(perform I w s).1, (perform I w s).2.value⟩) :: kept I (perform I w s).2 rest := by
  simp [kept, run, succeeds]

/-- The script of the other steps runs as these steps ran among the failing ones. -/
theorem run_kept (I : Interface V) (w : Wrapped tag V) (script : List (Step V)) :
    run I w ((kept I w script).map Prod.fst) = (kept I w script).map Prod.snd ∧
      final I w ((kept I w script).map Prod.fst) = final I w script := by
  induction script generalizing w with
  | nil => exact ⟨rfl, rfl⟩
  | cons s rest ih =>
    by_cases fails : s.fails (perform I w s).1 = true
    · have unmoved := perform_of_fails fails
      rw [kept_of_fails fails, final, unmoved]
      exact ih w
    · rw [Bool.not_eq_true] at fails
      obtain ⟨later, last⟩ := ih (perform I w s).2
      rw [kept_of_succeeds fails]
      simp only [List.map_cons, run, final, later, last, and_self]

theorem run_getElem?_middle (I : Interface V) (w : Wrapped tag V) (before : List (Step V))
    (s : Step V) (after : List (Step V)) :
    (run I w (before ++ s :: after))[before.length]? =
      some ⟨(perform I (final I w before) s).1, (perform I (final I w before) s).2.value⟩ := by
  rw [run_append, List.getElem?_append_right (by simp), length_run, Nat.sub_self]
  rfl

/-- A chain that stops with a fault is the chain of the moves before the fault and one
more move, which is refused. -/
theorem walk_eq_fault {move : Direction → Wrapped tag V → Except Fault (Wrapped tag V)}
    {moves : List Direction} {w : Wrapped tag V} {f : Fault}
    (stops : (walk move moves w).1 = .fault f) :
    ∃ made d rest, moves = made ++ d :: rest ∧
      walk move made w = answer (.value (walk move moves w).2.value) (walk move moves w).2 ∧
      walk move (made ++ [d]) w = (.fault f, (walk move moves w).2) := by
  induction moves generalizing w with
  | nil => simp [walk, answer] at stops
  | cons d rest ih =>
    cases moved : move d w with
    | error fault =>
      simp only [walk, moved, Reply.fault.injEq] at stops
      subst stops
      exact ⟨[], d, rest, rfl, by simp [walk, moved], by simp [walk, moved]⟩
    | ok next =>
      simp only [walk, moved] at stops ⊢
      obtain ⟨made, d', rest', split, walked, refused⟩ := ih stops
      exact ⟨d :: made, d', rest', by rw [split, List.cons_append],
        by simp only [walk, moved, walked], by simp only [List.cons_append, walk, moved, refused]⟩

theorem perform_chain_eq_fault {I : Interface V} {w : Wrapped tag V} {moves : List Direction}
    {f : Fault} (stops : (perform I w (.chain moves)).1 = .fault f) :
    ∃ made d rest, moves = made ++ d :: rest ∧
      (perform I w (.chain (made ++ [d]))).1 = .fault f ∧
      perform I w (.chain made) =
        answer (.value (perform I w (.chain moves)).2.value) (perform I w (.chain moves)).2 := by
  cases has : I.moveMethod? tag with
  | none => simp [perform, has] at stops
  | some move =>
    simp only [perform, has] at stops ⊢
    obtain ⟨made, d, rest, split, walked, refused⟩ := walk_eq_fault stops
    exact ⟨made, d, rest, split, by rw [refused], walked⟩

/-- Without the failing steps the other ones leave the same entries and the same last state. A
chain that stops with a fault can give way to the chain of the moves before the fault; the
transcript then differs in the reply to the chain alone. -/
theorem failing_steps_invisible (I : Interface V) (w : Wrapped tag V) (script : List (Step V)) :
    (∀ before s after e, script = before ++ s :: after →
      (run I w script)[before.length]? = some e → s.fails e.reply = true →
      e.state = (final I w before).value) ∧
    run I w ((kept I w script).map Prod.fst) = (kept I w script).map Prod.snd ∧
    final I w ((kept I w script).map Prod.fst) = final I w script ∧
    ∀ before moves after e f, script = before ++ .chain moves :: after →
      (run I w script)[before.length]? = some e → e.reply = .fault f →
      ∃ made d rest, moves = made ++ d :: rest ∧
        (perform I (final I w before) (.chain (made ++ [d]))).1 = .fault f ∧
        run I w (before ++ .chain made :: after) =
          (run I w script).set before.length ⟨.done (.value e.state), e.state⟩ ∧
        final I w (before ++ .chain made :: after) = final I w script := by
  obtain ⟨others, last⟩ := run_kept I w script
  refine ⟨?_, others, last, ?_⟩
  · rintro before s after e rfl entry fails
    rw [run_getElem?_middle, Option.some.injEq] at entry
    subst entry
    rw [perform_of_fails fails]
  · rintro before moves after e f rfl entry stops
    rw [run_getElem?_middle, Option.some.injEq] at entry
    subst entry
    obtain ⟨made, d, rest, split, refused, walked⟩ := perform_chain_eq_fault stops
    refine ⟨made, d, rest, split, refused, ?_, ?_⟩
    · rw [run_append, run_append, List.set_append_right _ _ (by simp), length_run, Nat.sub_self]
      simp only [run, walked, answer, List.set_cons_zero]
    · rw [final_append, final_append]
      simp only [final, walked, answer]

end Wrapped

end Nominal
