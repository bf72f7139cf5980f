/-! Natural numbers as bytes. A number is written in a fixed count of bytes from the
least significant one up, and what does not fit is dropped. -/

namespace Nominal

def littleEndian : Nat → Nat → List UInt8
  | 0, _ => []
  | count + 1, n => UInt8.ofNat n :: littleEndian count (n / 256)

end Nominal
