/-! Text is the list of its Unicode scalars, so that every law about text is a law
about lists. Two measures of it differ: the number of scalars, which is the length
of the list, and the number of bytes of its UTF-8 form. Order and digests look at
the bytes. -/

namespace Nominal

abbrev Text := List Char

namespace Text

def bytes (t : Text) : List UInt8 := t.flatMap String.utf8EncodeChar

def byteLength (t : Text) : Nat := t.bytes.length

/-- Order of two texts, decided by their UTF-8 bytes as unsigned numbers; a text
comes after everything it continues. -/
def compare (s t : Text) : Ordering := List.compareLex Ord.compare s.bytes t.bytes

/-- Raises the twenty-six small letters of ASCII and leaves every other scalar alone. -/
def upper (t : Text) : Text := t.map Char.toUpper

def join (separator : Text) : List Text → Text
  | [] => []
  | [t] => t
  | t :: u :: rest => t ++ separator ++ join separator (u :: rest)

@[simp] theorem bytes_nil : bytes [] = [] := rfl

@[simp] theorem bytes_cons (c : Char) (t : Text) :
    bytes (c :: t) = String.utf8EncodeChar c ++ bytes t := by
  simp [bytes]

end Text

end Nominal
