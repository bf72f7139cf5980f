import Nominal.Script.Step

/-! Steps, answers and entries along a function of their values. A function from one
set of values to another carries a script over the first to a script over the second,
and a transcript likewise. -/

namespace Nominal

variable {U V W : Type}

def Operand.along (g : V → W) : Operand V → Operand W
  | .wrapped v => .wrapped (g v)
  | .bare v => .bare (g v)
  | .itself => .itself

def Mapping.along (g : V → W) : Mapping V → Mapping W
  | .constant v => .constant (g v)
  | .identity => .identity
  | .square => .square
  | .double => .double
  | .abs => .abs

def Step.along (g : V → W) : Step V → Step W
  | .wrap v => .wrap (g v)
  | .assign v => .assign (g v)
  | .reset => .reset
  | .look how => .look how
  | .replace v => .replace (g v)
  | .take => .take
  | .copyThenAssign v => .copyThenAssign (g v)
  | .map h => .map (h.along g)
  | .edit e => .edit e
  | .measure m => .measure m
  | .operate op rhs => .operate op (rhs.along g)
  | .compound op rhs => .compound op (rhs.along g)
  | .negate => .negate
  | .move d moment => .move d moment
  | .chain moves => .chain moves
  | .step d => .step d
  | .bareStep d => .bareStep d
  | .relate r rhs => .relate r (rhs.along g)
  | .partialCompare rhs => .partialCompare (rhs.along g)
  | .compare v => .compare (g v)
  | .extremum e v => .extremum e (g v)
  | .clamp low high => .clamp (g low) (g high)
  | .hash => .hash
  | .checked op rhs => .checked op (rhs.along g)
  | .saturating op rhs => .saturating op (rhs.along g)
  | .landmark l => .landmark l
  | .isLandmark l => .isLandmark l
  | .bound b => .bound b
  | .display s => .display s
  | .debug s => .debug s
  | .parse input => .parse input
  | .unavailable => .unavailable

def Answer.along (g : V → W) : Answer V → Answer W
  | .nothing => .nothing
  | .value v => .value (g v)
  | .truth b => .truth b
  | .ordering o => .ordering o
  | .text t => .text t
  | .count n => .count n
  | .bytes bs => .bytes bs
  | .absent => .absent
  | .accepted => .accepted
  | .rejected r => .rejected r

def Reply.along (g : V → W) : Reply V → Reply W
  | .done a => .done (a.along g)
  | .fault f => .fault f
  | .unsupported => .unsupported

def Entry.along (g : V → W) (e : Entry V) : Entry W where
  reply := e.reply.along g
  state := g e.state

@[simp] theorem Operand.contribution_along (g : V → W) (state : V) (rhs : Operand V) :
    (rhs.along g).contribution (g state) = g (rhs.contribution state) := by
  cases rhs <;> rfl

theorem Operand.along_id (rhs : Operand V) : (rhs.along fun v => v) = rhs := by
  cases rhs <;> rfl

theorem Mapping.along_id (h : Mapping V) : (h.along fun v => v) = h := by
  cases h <;> rfl

theorem Step.along_id (s : Step V) : (s.along fun v => v) = s := by
  cases s <;> simp only [Step.along, Operand.along_id, Mapping.along_id]

theorem Reply.along_id (reply : Reply V) : (reply.along fun v => v) = reply := by
  cases reply with
  | done a => cases a <;> rfl
  | fault f => rfl
  | unsupported => rfl

theorem Operand.along_along (h : V → W) (g : U → V) (rhs : Operand U) :
    (rhs.along g).along h = rhs.along fun u => h (g u) := by
  cases rhs <;> rfl

theorem Reply.along_along (h : V → W) (g : U → V) (reply : Reply U) :
    (reply.along g).along h = reply.along fun u => h (g u) := by
  cases reply with
  | done a => cases a <;> rfl
  | fault f => rfl
  | unsupported => rfl

theorem Entry.along_along (h : V → W) (g : U → V) (e : Entry U) :
    (e.along g).along h = e.along fun u => h (g u) := by
  simp only [Entry.along, Reply.along_along]

end Nominal
