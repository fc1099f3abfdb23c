/-
Clipped messages.

A message that is thrown into a script passes through a buffer of fixed size: it ends at its first
NUL and after at most 255 bytes, and a character that the cut would split goes whole.  A name that
a message quotes passes through a smaller buffer of its own unless it is ASCII.
-/

namespace ScriptHost.Text

/-- The longest beginning of at most `room` bytes. -/
def takeBytes (room : Nat) : List Char → List Char
  | [] => []
  | c :: rest => if c.utf8Size ≤ room then c :: takeBytes (room - c.utf8Size) rest else []

/-- The bytes of a thrown message. -/
def messageRoom : Nat := 255

def clip (message : String) : String :=
  String.ofList (takeBytes messageRoom (message.toList.takeWhile (· ≠ '\x00')))

/-- The bytes of a quoted name that is not ASCII. -/
def nameRoom : Nat := 63

/-- A name as messages quote it. -/
def clipName (name : String) : String :=
  if name.toList.all fun c => c.toNat < 0x80 then name
  else String.ofList (takeBytes nameRoom name.toList)

end ScriptHost.Text
