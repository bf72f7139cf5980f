import Nominal.Text.Unprintable

/-! Quoted text, as it is shown for inspection. Five characters have escapes of their
own, the enclosing quote and the backslash are marked by a backslash, and an
unprintable character is written by its code in hexadecimal between braces. What is
left is shown as it is, so a quoted text never holds a bare line break. -/

namespace Nominal.Text

def escapeCode (c : Char) : Text :=
  ['\\', 'u', '\x7b'] ++ Nat.toDigits 16 c.toNat ++ ['\x7d']

def escape (quote c : Char) : Text :=
  if c = '\x00' then ['\\', '0']
  else if c = '\t' then ['\\', 't']
  else if c = '\r' then ['\\', 'r']
  else if c = '\n' then ['\\', 'n']
  else if c = '\\' ∨ c = quote then ['\\', c]
  else if isUnprintable c then escapeCode c
  else [c]

def quoted (t : Text) : Text := '"' :: t.flatMap (escape '"') ++ ['"']

def quotedChar (c : Char) : Text := '\'' :: escape '\'' c ++ ['\'']

end Nominal.Text
