import Nominal.Ty

/-! A catalogue of wrappers. It covers every base type, a name that is empty, a name
with quotes, braces and a line break in it, a wrapper inside a wrapper, and tags
without a name or that stay on one thread. -/

namespace Nominal

def Tag.named (name : String) : Tag where
  identifier := name.toList ++ "Tag".toList
  name? := some name.toList

namespace Catalogue

def meterTag : Tag := .named "Meter"
def yardTag : Tag := .named "Yard"
def naturalIntTag : Tag := .named "NaturalInt"
def nameTag : Tag := .named "Name"
def outerTag : Tag := .named "Outer"

def anonTag : Tag := { Tag.named "Anon" with name? := some [] }

def oddTag : Tag := { Tag.named "Odd" with name? := some "Größe \"q\"\n\x7b\x7d".toList }

def plainTag : Tag := { Tag.named "Plain" with name? := some "PlainTag".toList }

def untaggedTag : Tag := { Tag.named "Untagged" with name? := none }

def unitTag : Tag := { Tag.named "Unit" with identifier := "()".toList, name? := none }

def localTag : Tag := { Tag.named "LocalTagged" with sendable := false, shareable := false }

def meter : Ty := .wrapped meterTag (.int .int32)
def yard : Ty := .wrapped yardTag (.int .int32)
def tiny : Ty := .wrapped (.named "Tiny") (.int .int8)
def short : Ty := .wrapped (.named "Short") (.int .int16)
def long : Ty := .wrapped (.named "Long") (.int .int64)
def huge : Ty := .wrapped (.named "Huge") (.int .int128)
def offset : Ty := .wrapped (.named "Offset") (.int .intWord)
def speed : Ty := .wrapped (.named "Speed") (.int .nat8)
def port : Ty := .wrapped (.named "Port") (.int .nat16)
def naturalInt : Ty := .wrapped naturalIntTag (.int .nat32)
def ticks : Ty := .wrapped (.named "Ticks") (.int .nat64)
def vast : Ty := .wrapped (.named "Vast") (.int .nat128)
def size : Ty := .wrapped (.named "Size") (.int .natWord)
def anon : Ty := .wrapped anonTag (.int .int32)
def odd : Ty := .wrapped oddTag (.int .int64)
def plain : Ty := .wrapped plainTag (.int .nat8)
def ratio : Ty := .wrapped (.named "Ratio") (.float .double)
def gain : Ty := .wrapped (.named "Gain") (.float .single)
def ring : Ty := .wrapped (.named "Ring") (.wrapping .nat8)
def wheel : Ty := .wrapped (.named "Wheel") (.wrapping .int32)
def clamp : Ty := .wrapped (.named "Clamp") (.saturating .int8)
def name : Ty := .wrapped nameTag .text
def flag : Ty := .wrapped (.named "Flag") .truth
def letter : Ty := .wrapped (.named "Letter") .char
def pair : Ty := .wrapped (.named "Pair") (.pair (.int .int32) (.int .int32))
def maybe : Ty := .wrapped (.named "Maybe") (.option (.int .int32))
def outer : Ty := .wrapped outerTag meter
def untagged : Ty := .wrapped untaggedTag (.int .int32)
def shared : Ty := .wrapped (.named "Shared") (.shared (.int .int32))
def nothing : Ty := .wrapped (.named "Nothing") .unit
def many : Ty := .wrapped (.named "Many") (.list (.int .int32))
def localTagged : Ty := .wrapped localTag (.int .int32)
def unitTagged : Ty := .wrapped unitTag (.int .int32)

def all : List (String × Ty) :=
  [("Meter", meter), ("Yard", yard), ("Tiny", tiny), ("Short", short), ("Long", long),
    ("Huge", huge), ("Offset", offset), ("Speed", speed), ("Port", port),
    ("NaturalInt", naturalInt), ("Ticks", ticks), ("Vast", vast), ("Size", size),
    ("Anon", anon), ("Odd", odd), ("Plain", plain), ("Ratio", ratio), ("Gain", gain),
    ("Ring", ring), ("Wheel", wheel), ("Clamp", clamp), ("Name", name), ("Flag", flag),
    ("Letter", letter), ("Pair", pair), ("Maybe", maybe), ("Outer", outer),
    ("Untagged", untagged), ("Shared", shared), ("Nothing", nothing), ("Many", many),
    ("LocalTagged", localTagged), ("UnitTag", unitTagged)]

def find? (key : String) : Option Ty := all.lookup key

def findTag? (identifier : String) : Option Tag :=
  all.findSome? fun entry => match entry.2 with
    | .wrapped tag _ => if tag.identifier = identifier.toList then some tag else none
    | _ => none

end Catalogue

end Nominal
