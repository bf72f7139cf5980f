import Nominal.Collection.Run
import Nominal.Conversion
import Nominal.Script.Run

/-! A short tour of the library: counts that are sorted, a name that is edited and
compared, and a track whose length is read, extended by a converted length and moved
by one. Every line of the tour is the reply to a step of some script. -/

namespace Nominal.Tour

def line? {V : Type} : Reply V → Option Text
  | .done (.text t) => some t
  | .done (.truth b) => some (truthText b)
  | .done (.rejected r) => some r.message
  | .fault f => some f.message.toList
  | _ => none

def listLine? {V : Type} : ListReply V → Option Text
  | .done (.text t) => some t
  | .fault f => some f.message.toList
  | _ => none

def counts : List (Wrapped Catalogue.naturalIntTag (FixedInt .nat32)) :=
  [1, 56, 90, 56, 2, 78, 5].map fun n => ⟨FixedInt.clamp .nat32 n⟩

def countLines : List Text :=
  (Wrapped.runList (Interface.integer .nat32) counts [.join, .sort, .join]).filterMap listLine?

def person : Wrapped Catalogue.nameTag Text := ⟨"Jean".toList⟩

def rename : List (Step Text) := [.edit (.append "-Paul".toList)]

def personLines : List Text :=
  -- All of the name is ASCII, and so `upper` raises all its letters.
  let renamed := Wrapped.final Interface.text person rename
  let shown := Wrapped.run Interface.text renamed
    [.display Spec.plain, .relate .lt (.wrapped "Jeff".toList)]
  shown.filterMap (fun entry => line? entry.reply) ++
    ["Using the value directly: ".toList ++ renamed.value.upper]

def trackScript (extension : FixedInt .int32) : List (Step (FixedInt .int32)) :=
  [.parse "400".toList, .compound .add (.wrapped extension), .move .forward .after,
    .debug Spec.plain, .parse "four hundred".toList]

def track : Wrapped Catalogue.meterTag (FixedInt .int32) := ⟨FixedInt.zero .int32⟩

def trackLines : List Text :=
  match Conversion.yardsToMeters ⟨FixedInt.clamp .int32 110⟩ with
  | .error fault => [fault.message.toList]
  | .ok extension =>
    (Wrapped.run (Interface.integer .int32) track (trackScript extension.value)).filterMap
      fun entry => line? entry.reply

def lines : List Text := countLines ++ personLines ++ trackLines

end Nominal.Tour
