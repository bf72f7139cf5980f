import Nominal.Script.Step
import Nominal.Wrapped

/-! Running a script on one wrapper. The state is a wrapper, and each step leaves a
reply and the next state. A step that the interface does not offer is answered so and
changes nothing, and neither does a step that stops with a fault; only a chain of
moves keeps those that it made before the fault. The transcript holds one entry for
every step of the script, whatever came before it. -/

namespace Nominal.Wrapped

variable {tag : Tag} {V : Type}

abbrev Outcome (tag : Tag) (V : Type) := Reply V × Wrapped tag V

def answer (a : Answer V) (w : Wrapped tag V) : Outcome tag V := (.done a, w)

/-- Takes over a new state, unless the operation is missing or stops with a fault. -/
def settle (w : Wrapped tag V) : Option (Except Fault (Wrapped tag V)) → Outcome tag V
  | none => (.unsupported, w)
  | some (.error fault) => (.fault fault, w)
  | some (.ok next) => answer .nothing next

def settleTotal (w : Wrapped tag V) (next? : Option (Wrapped tag V)) : Outcome tag V :=
  settle w (next?.map .ok)

def inform (w : Wrapped tag V) : Option (Answer V) → Outcome tag V
  | none => (.unsupported, w)
  | some a => answer a w

/-- An operator in the form that its right operand asks for. -/
def withOperand {α : Type} (same? : Option (Wrapped tag V → Wrapped tag V → α))
    (bare? : Option (Wrapped tag V → V → α)) (w : Wrapped tag V) : Operand V → Option α
  | .wrapped v => same?.map fun g => g w ⟨v⟩
  | .itself => same?.map fun g => g w w
  | .bare v => bare?.map fun g => g w v

def operate (I : Interface V) (op : Operator) (rhs : Operand V) (w : Wrapped tag V) :
    Outcome tag V :=
  settle w (withOperand ((I.wrap tag).operate? op) (I.operateBare? tag op) w rhs)

def compound (I : Interface V) (op : Operator) (rhs : Operand V) (w : Wrapped tag V) :
    Outcome tag V :=
  settle w (withOperand ((I.wrap tag).assign? op) (I.assignBare? tag op) w rhs)

def checked (I : Interface V) (op : Operator) (rhs : Operand V) (w : Wrapped tag V) :
    Outcome tag V :=
  match I.checkedMethod? tag op with
  | none => (.unsupported, w)
  | some method => match method w (rhs.contribution w.value) with
    | none => answer .absent w
    | some next => answer (.value next.value) next

def saturating (I : Interface V) (op : Operator) (rhs : Operand V) (w : Wrapped tag V) :
    Outcome tag V :=
  settleTotal w ((I.saturatingMethod? tag op).map fun method =>
    method w (rhs.contribution w.value))

def equal? (I : Interface V) (rhs : Operand V) (w : Wrapped tag V) : Option Bool :=
  withOperand (I.wrap tag).equal? (I.equalBare? tag) w rhs

def partialCompare? (I : Interface V) (rhs : Operand V) (w : Wrapped tag V) :
    Option (Option Ordering) :=
  withOperand (I.wrap tag).partialCompare? (I.partialCompareBare? tag) w rhs

/-- Of two equal values the maximum is the second and the minimum the first. -/
def extremum (compare : Wrapped tag V → Wrapped tag V → Ordering) (a b : Wrapped tag V) :
    Extremum → Wrapped tag V
  | .max => if compare b a = .lt then a else b
  | .min => if compare b a = .lt then b else a

def clamp (compare : Wrapped tag V → Wrapped tag V → Ordering) (low high w : Wrapped tag V) :
    Except Fault (Wrapped tag V) :=
  if compare low high = .gt then .error .crossedBounds
  else if compare w low = .lt then .ok low
  else if compare w high = .gt then .ok high
  else .ok w

def look (I : Interface V) (w : Wrapped tag V) : Reading → Outcome tag V
  | .borrow | .extract => answer (.value w.value) w
  | .clone => inform w (if (I.wrap tag).clonable then some (.value w.value) else none)
  | .copy => inform w (if (I.wrap tag).copyable then some (.value w.value) else none)

def mapping? (I : Interface V) : Mapping V → Option (V → Except Fault V)
  | .constant v => some fun _ => .ok v
  | .identity => some .ok
  | .square => (I.operate? .mul).map fun mul v => mul v v
  | .double => (I.operate? .add).map fun add v => add v v
  | .abs => I.abs?

def edited : Edit → Text → Text
  | .append u, t => t ++ u
  | .clear, _ => []
  | .upper, t => t.upper
  | .reverse, t => t.reverse

def measured : Measure → Text → Nat
  | .bytes, t => t.byteLength
  | .scalars, t => t.length

def walk (move : Direction → Wrapped tag V → Except Fault (Wrapped tag V)) :
    List Direction → Wrapped tag V → Outcome tag V
  | [], w => answer (.value w.value) w
  | d :: rest, w => match move d w with
    | .ok next => walk move rest next
    | .error fault => (.fault fault, w)

/-- One move that answers with the value before or after it. A value from before the
move has to be kept as a copy. -/
def moveBy (I : Interface V) (d : Direction) (moment : Moment) (w : Wrapped tag V) :
    Outcome tag V :=
  match I.moveMethod? tag, moment with
  | none, _ => (.unsupported, w)
  | some move, .after => match move d w with
    | .ok next => answer (.value next.value) next
    | .error fault => (.fault fault, w)
  | some move, .before =>
    if (I.wrap tag).clonable then
      match move d w with
      | .ok next => answer (.value w.value) next
      | .error fault => (.fault fault, w)
    else (.unsupported, w)

def landmark? (I : Interface V) : Landmark → Option (Identity V)
  | .zero => I.zero?
  | .one => I.one?

def bound (bounds : Bounds V) : Bound → V
  | .least => bounds.least
  | .greatest => bounds.greatest

/-- Reads a text in the place of the state. A refused text leaves the state alone. -/
def parse (I : Interface V) (input : Text) (w : Wrapped tag V) : Outcome tag V :=
  match (I.wrap tag).read? with
  | none => (.unsupported, w)
  | some read => match read input with
    | .ok next => answer .accepted next
    | .error rejection => answer (.rejected rejection) w

def write (s : Spec) (w : Wrapped tag V) :
    Option (Spec → Wrapped tag V → Text) → Outcome tag V
  | none => (.unsupported, w)
  | some text => match s.write fun s => text s w with
    | .ok t => answer (.text t) w
    | .error fault => (.fault fault, w)

def perform (I : Interface V) (w : Wrapped tag V) : Step V → Outcome tag V
  | .wrap v => answer .nothing ⟨v⟩
  | .assign v => answer .nothing { w with value := v }
  | .reset => settleTotal w (I.wrap tag).initial?
  | .look how => look I w how
  | .replace v => answer (.value w.value) ⟨v⟩
  | .take => match (I.wrap tag).initial? with
    | none => (.unsupported, w)
    | some next => answer (.value w.value) next
  | .copyThenAssign v =>
    if (I.wrap tag).copyable then answer (.value w.value) { w with value := v }
    else (.unsupported, w)
  | .map g => settle w ((mapping? I g).map fun g => w.tryMap g)
  | .edit e => settleTotal w (I.text?.map fun view =>
      w.map fun v => view.ofText (edited e (view.text v)))
  | .measure m => inform w (I.text?.map fun view => .count (measured m (view.text w.value)))
  | .operate op rhs => operate I op rhs w
  | .compound op rhs => compound I op rhs w
  | .negate => settle w ((I.wrap tag).neg?.map fun neg => neg w)
  | .move d moment => moveBy I d moment w
  | .chain moves => match I.moveMethod? tag with
    | none => (.unsupported, w)
    | some move => walk move moves w
  | .step d => settle w ((I.wrap tag).step?.map fun step => step d w)
  | .bareStep d => settle w (tag.forward I.step? fun _ step => w.tryMap (step d))
  | .relate r rhs =>
    inform w ((r.decide? (equal? I rhs w) (partialCompare? I rhs w)).map .truth)
  | .partialCompare rhs => inform w ((partialCompare? I rhs w).map .ordering)
  | .compare v => inform w ((I.wrap tag).compare?.map fun compare =>
      .ordering (some (compare w ⟨v⟩)))
  | .extremum e v => settleTotal w ((I.wrap tag).compare?.map fun compare =>
      extremum compare w ⟨v⟩ e)
  | .clamp low high => settle w ((I.wrap tag).compare?.map fun compare =>
      clamp compare ⟨low⟩ ⟨high⟩ w)
  | .hash => inform w ((I.wrap tag).hash?.map fun hash => .bytes (hash w))
  | .checked op rhs => checked I op rhs w
  | .saturating op rhs => saturating I op rhs w
  | .landmark l => settleTotal w ((landmark? (I.wrap tag) l).map Identity.value)
  | .isLandmark l => inform w ((landmark? (I.wrap tag) l).map fun e => .truth (e.test w))
  | .bound b => settleTotal w ((I.wrap tag).bounds?.map fun bounds => bound bounds b)
  | .display s => write s w (I.wrap tag).display?
  | .debug s => write s w (I.wrap tag).debug?
  | .parse input => parse I input w
  | .unavailable => (.unsupported, w)

def run (I : Interface V) (w : Wrapped tag V) : List (Step V) → List (Entry V)
  | [] => []
  | step :: rest =>
    let outcome := perform I w step
    ⟨outcome.1, outcome.2.value⟩ :: run I outcome.2 rest

def final (I : Interface V) (w : Wrapped tag V) : List (Step V) → Wrapped tag V
  | [] => w
  | step :: rest => final I (perform I w step).2 rest

@[simp] theorem length_run (I : Interface V) (w : Wrapped tag V) (script : List (Step V)) :
    (run I w script).length = script.length := by
  induction script generalizing w with
  | nil => rfl
  | cons step rest ih => simp [run, ih]

end Nominal.Wrapped
