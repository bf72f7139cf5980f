import Nominal.Text.Layout
import Nominal.Text.Quoted

/-! Why a text was refused as a value. The reader of each kind of value has its own
flaws. A wrapper adds its name and the whole input to the cause that the reader of
the wrapped value gave, so the rejection of a nested wrapper holds that of the inner
one. -/

namespace Nominal

inductive IntegerFlaw where
  | empty
  | invalidDigit
  | tooLarge
  | tooSmall
  deriving DecidableEq

inductive FloatFlaw where
  | empty
  | invalid
  deriving DecidableEq

inductive CharFlaw where
  | empty
  | tooMany
  deriving DecidableEq

inductive Rejection where
  | integer (flaw : IntegerFlaw)
  | float (flaw : FloatFlaw)
  | truth
  | char (flaw : CharFlaw)
  | words (t : Text)
  | named (name input : Text) (cause : Rejection)
  deriving DecidableEq

def IntegerFlaw.message : IntegerFlaw → String
  | .empty => "cannot parse integer from empty string"
  | .invalidDigit => "invalid digit found in string"
  | .tooLarge => "number too large to fit in target type"
  | .tooSmall => "number too small to fit in target type"

def IntegerFlaw.label : IntegerFlaw → String
  | .empty => "Empty"
  | .invalidDigit => "InvalidDigit"
  | .tooLarge => "PosOverflow"
  | .tooSmall => "NegOverflow"

def FloatFlaw.message : FloatFlaw → String
  | .empty => "cannot parse float from empty string"
  | .invalid => "invalid float literal"

def FloatFlaw.label : FloatFlaw → String
  | .empty => "Empty"
  | .invalid => "Invalid"

def CharFlaw.message : CharFlaw → String
  | .empty => "cannot parse char from empty string"
  | .tooMany => "too many characters in string"

def CharFlaw.label : CharFlaw → String
  | .empty => "EmptyString"
  | .tooMany => "TooManyChars"

namespace Rejection

/-- The wording of a rejection. A name, an input and a cause in words are written as
they are. -/
def message : Rejection → Text
  | .integer flaw => flaw.message.toList
  | .float flaw => flaw.message.toList
  | .truth => "provided string was not `true` or `false`".toList
  | .char flaw => flaw.message.toList
  | .words t => t
  | .named name input cause =>
    "Invalid ".toList ++ name ++ " '".toList ++ input ++ "': ".toList ++ cause.message

def debugKind (s : Spec) (name label : String) : Text :=
  s.record name.toList [("kind".toList, label.toList)]

def debug (s : Spec) : Rejection → Text
  | .integer flaw => debugKind s "ParseIntError" flaw.label
  | .float flaw => debugKind s "ParseFloatError" flaw.label
  | .truth => "ParseBoolError".toList
  | .char flaw => debugKind s "ParseCharError" flaw.label
  | .words t => Text.quoted t
  | .named name input cause =>
    s.record "ParseStrongError".toList
      [("name".toList, Text.quoted name), ("input".toList, Text.quoted input),
        ("cause".toList, cause.debug s)]

/-- The form for readers. The wording that a wrapper composes takes nothing from the
specification, and within it the cause stands in the plain form; any other wording is
a text, which is cut and padded. -/
def display (s : Spec) : Rejection → Text
  | .named name input cause => message (.named name input cause)
  | r => s.padText r.message

def write (r : Rejection) (style : Style) (s : Spec) : Except Fault Text :=
  s.write fun s => match style with
    | .display => r.display s
    | .debug => r.debug s

def source? : Rejection → Option Rejection
  | .named _ _ cause => some cause
  | _ => none

def copy : Rejection → Rejection
  | .integer flaw => .integer flaw
  | .float flaw => .float flaw
  | .truth => .truth
  | .char flaw => .char flaw
  | .words t => .words t
  | .named name input cause => .named name input cause.copy

def same : Rejection → Rejection → Bool
  | .integer flaw, .integer flaw' => flaw = flaw'
  | .float flaw, .float flaw' => flaw = flaw'
  | .truth, .truth => true
  | .char flaw, .char flaw' => flaw = flaw'
  | .words t, .words t' => t = t'
  | .named name input cause, .named name' input' cause' =>
    name = name' && input = input' && cause.same cause'
  | _, _ => false

theorem copy_eq (r : Rejection) : r.copy = r := by
  induction r with
  | named name input cause ih => rw [copy, ih]
  | _ => rfl

theorem same_iff (r r' : Rejection) : r.same r' = true ↔ r = r' := by
  induction r generalizing r' with
  | named name input cause ih => cases r' <;> simp [same, ih, and_assoc]
  | _ => cases r' <;> simp [same]

end Rejection

end Nominal
