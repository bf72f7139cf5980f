import Nominal.Catalogue

/-! Lengths in yards as lengths in meters. A yard is 0.9144 meters. The result is the
nearest whole number of meters, and a half goes up. -/

namespace Nominal

/-- The quotient whose remainder is not negative. -/
def FixedInt.euclideanDiv {f : IntFormat} (a b : FixedInt f) : Except Fault (FixedInt f) :=
  if b.toInt = 0 then .error .divisionByZero
  else match FixedInt.ofInt? f (a.toInt / b.toInt) with
    | some quotient => .ok quotient
    | none => .error (.overflow .div)

namespace Conversion

/-- Ten thousand times the length of a yard in meters. -/
def metersPerYard : FixedInt .int32 := ⟨9144, by decide, by decide⟩

def precision : FixedInt .int32 := ⟨10000, by decide, by decide⟩

def halfPrecision : FixedInt .int32 := ⟨5000, by decide, by decide⟩

def yardsToMeters (yards : Wrapped Catalogue.yardTag (FixedInt .int32)) :
    Except Fault (Wrapped Catalogue.meterTag (FixedInt .int32)) := do
  let scaled ← yards.value.apply .mul metersPerYard
  let raised ← scaled.apply .add halfPrecision
  let meters ← raised.euclideanDiv precision
  .ok ⟨meters⟩

end Conversion

end Nominal
