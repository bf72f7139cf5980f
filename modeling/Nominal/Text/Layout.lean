import Nominal.Text.Spec

/-! The layouts in which compound values are shown for inspection. The compact layout
puts everything on one line; the alternate layout gives each part a line of its own,
moved right by four spaces and closed by a comma. A part that is itself laid out on
several lines is moved as a whole, so the indentation of nested parts adds up. -/

namespace Nominal

/-- Puts four spaces in front of every line that holds a character. The flag says
whether the text starts a line. -/
def indentFrom : Bool → Text → Text
  | _, [] => []
  | true, c :: rest => ' ' :: ' ' :: ' ' :: ' ' :: c :: indentFrom (c = '\n') rest
  | false, c :: rest => c :: indentFrom (c = '\n') rest

def ownLines (part : Text) : Text := indentFrom true (part ++ [',', '\n'])

namespace Spec

def enclose (s : Spec) (opening closing : Char) (parts : List Text) : Text :=
  if parts.isEmpty then [opening, closing]
  else if s.alternate then opening :: '\n' :: parts.flatMap ownLines ++ [closing]
  else opening :: Text.join [',', ' '] parts ++ [closing]

/-- A name with one part in parentheses. Without a name the compact layout adds a
comma, which tells one part from a part in plain parentheses. -/
def labelled (s : Spec) (name part : Text) : Text :=
  if name.isEmpty ∧ ¬ s.alternate then '(' :: part ++ [',', ')']
  else name ++ s.enclose '(' ')' [part]

def record (s : Spec) (name : Text) (fields : List (Text × Text)) : Text :=
  let parts := fields.map fun field => field.1 ++ [':', ' '] ++ field.2
  if s.alternate then name ++ ' ' :: s.enclose '\x7b' '\x7d' parts
  else name ++ [' ', '\x7b', ' '] ++ Text.join [',', ' '] parts ++ [' ', '\x7d']

end Spec

end Nominal
