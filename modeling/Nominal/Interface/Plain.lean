import Nominal.Bytes
import Nominal.Interface.Basic
import Nominal.Text.Quoted

/-! Interfaces of text, truth values, characters and the unit type. A text feeds its
bytes and a byte that occurs in no UTF-8 form to a digest, so one text never feeds
the beginning of what another feeds. -/

namespace Nominal

def compareChars (c d : Char) : Ordering := compare c.toNat d.toNat

def compareTruth (a b : Bool) : Ordering := compare a.toNat b.toNat

def truthText (b : Bool) : Text := if b then "true".toList else "false".toList

def readTruth (t : Text) : Except Rejection Bool :=
  if t = truthText true then .ok true
  else if t = truthText false then .ok false
  else .error .truth

def readChar : Text → Except Rejection Char
  | [] => .error (.char .empty)
  | [c] => .ok c
  | _ => .error (.char .tooMany)

def charBytes (c : Char) : List UInt8 := littleEndian 4 c.toNat

def countBytes (n : Nat) : List UInt8 := littleEndian 8 n

namespace Interface

def text : Interface Text where
  initial? := some []
  clonable := true
  sendable := true
  shareable := true
  display? := some Spec.padText
  debug? := some fun _ t => Text.quoted t
  equal? := some fun s t => s = t
  reflexive := true
  partialCompare? := some fun s t => some (Text.compare s t)
  compare? := some Text.compare
  hash? := some fun t => t.bytes ++ [0xff]
  read? := some .ok
  text? := some ⟨id, id⟩

def textView : Interface Text where
  initial? := some []
  clonable := true
  copyable := true
  sendable := true
  shareable := true
  display? := some Spec.padText
  debug? := some fun _ t => Text.quoted t
  equal? := some fun s t => s = t
  reflexive := true
  partialCompare? := some fun s t => some (Text.compare s t)
  compare? := some Text.compare
  hash? := some fun t => t.bytes ++ [0xff]

def truth : Interface Bool where
  initial? := some false
  clonable := true
  copyable := true
  sendable := true
  shareable := true
  display? := some fun s b => s.padText (truthText b)
  debug? := some fun s b => s.padText (truthText b)
  equal? := some fun a b => a == b
  reflexive := true
  partialCompare? := some fun a b => some (compareTruth a b)
  compare? := some compareTruth
  hash? := some fun b => [if b then 1 else 0]
  read? := some readTruth

def char : Interface Char where
  initial? := some '\x00'
  clonable := true
  copyable := true
  sendable := true
  shareable := true
  display? := some fun s c => s.padText [c]
  debug? := some fun _ c => Text.quotedChar c
  equal? := some fun c d => c = d
  reflexive := true
  partialCompare? := some fun c d => some (compareChars c d)
  compare? := some compareChars
  hash? := some charBytes
  read? := some readChar

def unit : Interface Unit where
  initial? := some ()
  clonable := true
  copyable := true
  sendable := true
  shareable := true
  debug? := some fun s _ => s.padText ['(', ')']
  equal? := some fun _ _ => true
  reflexive := true
  partialCompare? := some fun _ _ => some .eq
  compare? := some fun _ _ => .eq
  hash? := some fun _ => []
  bounds? := some ⟨(), ()⟩

end Interface

end Nominal
