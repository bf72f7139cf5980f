import Nominal.Collection.Offer
import Nominal.Main
import Nominal.Operand
import Nominal.Proofs.Calculation
import Nominal.Proofs.Integer.Agreement
import Nominal.Proofs.Integer.Numeral
import Nominal.Proofs.Script.Failure
import Nominal.Script.Offer
import Nominal.Proofs.Script.Recast
import Nominal.Proofs.Collection.Along
import Nominal.Proofs.Collection.Mirror
import Nominal.Proofs.Naming
import Nominal.Proofs.Enclosure
import Nominal.Proofs.Integer.Canonical
import Nominal.Proofs.Spelling
import Nominal.Proofs.Reversal
import Nominal.Proofs.Integer.Total
import Nominal.Proofs.Operand
import Nominal.Proofs.Capability
import Nominal.Proofs.Script.Capability
import Nominal.Proofs.Interface.Order
import Nominal.Proofs.Comparison
import Nominal.Proofs.Digest
import Nominal.Proofs.Text.Digits
import Nominal.Proofs.Text.Quoted
import Nominal.Proofs.Text.Layout
import Nominal.Proofs.Interface.Inspection
import Nominal.Proofs.Inspection
import Nominal.Proofs.Rejection
import Nominal.Proofs.Integer.Chain
import Nominal.Proofs.Stepping
import Nominal.Proofs.Division
import Nominal.Proofs.Integer.Saturation
import Nominal.Proofs.Integer.Presence
import Nominal.Proofs.Collection.Sorted
import Nominal.Proofs.Collection.Dedup
import Nominal.Proofs.Collection.Distinct
import Nominal.Proofs.Collection.Lexicographic
import Nominal.Proofs.Text.CodeOrder
import Nominal.Proofs.NameOrder
import Nominal.Proofs.Conversion
import Nominal.Proofs.Text.Joined
import Nominal.Proofs.Joining
import Nominal.Proofs.Text.Padding
import Nominal.Proofs.Display
import Nominal.Proofs.Labelled
import Nominal.Proofs.Refusal
import Nominal.Proofs.Binary.Order
import Nominal.Proofs.Binary.Remainder
import Nominal.Proofs.Binary.Spelling
