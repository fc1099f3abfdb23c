/-
Text as UTF-16 units.

`encode` writes one unit for a character below `0x10000` and a high and a low surrogate for any
other.  `decode` reads units back; a surrogate without its partner becomes the replacement
character.
-/

namespace ScriptHost.Text

/-- The units of one character. -/
def unitsOf (c : Char) : List UInt16 :=
  let n := c.toNat
  if n < 0x10000 then [UInt16.ofNat n]
  else
    [UInt16.ofNat (0xD800 + (n - 0x10000) / 0x400),
      UInt16.ofNat (0xDC00 + (n - 0x10000) % 0x400)]

def encode (text : List Char) : List UInt16 := text.flatMap unitsOf

def isHighSurrogate (u : UInt16) : Bool := 0xD800 ≤ u.toNat ∧ u.toNat < 0xDC00

def isLowSurrogate (u : UInt16) : Bool := 0xDC00 ≤ u.toNat ∧ u.toNat < 0xE000

def replacement : Char := '\uFFFD'

/-- The character of a pair of surrogates. -/
def pairChar (high low : UInt16) : Char :=
  Char.ofNat (0x10000 + (high.toNat - 0xD800) * 0x400 + (low.toNat - 0xDC00))

def decode : List UInt16 → List Char
  | [] => []
  | [u] => if isHighSurrogate u ∨ isLowSurrogate u then [replacement] else [Char.ofNat u.toNat]
  | u :: v :: rest =>
    if isHighSurrogate u then
      if isLowSurrogate v then pairChar u v :: decode rest
      else replacement :: decode (v :: rest)
    else if isLowSurrogate u then replacement :: decode (v :: rest)
    else Char.ofNat u.toNat :: decode (v :: rest)

/-- A buffer of UTF-16 units, the form in which texts reach the renderer. -/
structure Units where
  units : List UInt16
  deriving DecidableEq, Inhabited

namespace Units

/-- A copy of a text. -/
def ofString (text : String) : Units := ⟨encode text.toList⟩

/-- The text of a buffer, with replacements for lone surrogates. -/
def toText (s : Units) : String := String.ofList (decode s.units)

/-- The number of units. -/
def length (s : Units) : Nat := s.units.length

def isEmpty (s : Units) : Bool := s.units.isEmpty

end Units
end ScriptHost.Text
