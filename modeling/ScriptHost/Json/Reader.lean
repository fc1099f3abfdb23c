/-
Reading JSON text.

`read` reads a whole text.  Arrays and objects nest at most `depth` deep, of repeated keys the
last counts, and the escapes of a string must give characters: a lone surrogate is malformed.
`skipValue` passes over a value that nobody wants: it may nest to any depth, its numbers may be
of any size, and its escapes need not give characters.

Reading runs on an amount of fuel computed from the length of the text; every second step takes
at least one character, so the fuel lasts.
-/
import ScriptHost.Json.Number

namespace ScriptHost.Json

def isBlank (c : Char) : Bool := c = ' ' ∨ c = '\n' ∨ c = '\t' ∨ c = '\r'

def skipBlank (cs : List Char) : List Char := cs.dropWhile isBlank

/-- Reads a fixed word. -/
def readWord : List Char → List Char → Except ReadError (List Char)
  | [], cs => .ok cs
  | _ :: _, [] => .error .ended
  | w :: word, c :: cs => if w = c then readWord word cs else .error .malformed

def hexValue? (c : Char) : Option Nat :=
  if '0' ≤ c ∧ c ≤ '9' then some (c.toNat - 48)
  else if 'a' ≤ c ∧ c ≤ 'f' then some (c.toNat - 87)
  else if 'A' ≤ c ∧ c ≤ 'F' then some (c.toNat - 55)
  else none

/-- Reads the four hexadecimal digits of an escape.  With fewer than four bytes left the text
ended too early, whatever those bytes are. -/
def readHex (cs : List Char) : Except ReadError (Nat × List Char) :=
  if (cs.take 4).foldl (fun n c => n + c.utf8Size) 0 < 4 then .error .ended
  else
    match (cs.take 4).mapM hexValue? with
    | some [a, b, c, d] => .ok (((a * 16 + b) * 16 + c) * 16 + d, cs.drop 4)
    | _ => .error .malformed

/-- The character that a one-letter escape stands for. -/
def plainEscape? : Char → Option Char
  | '"' => some '"'
  | '\\' => some '\\'
  | '/' => some '/'
  | 'b' => some '\x08'
  | 'f' => some '\x0c'
  | 'n' => some '\n'
  | 'r' => some '\r'
  | 't' => some '\t'
  | _ => none

/-- Reads the character of an escape after its `\u`. -/
def readUnicode (cs : List Char) : Except ReadError (Char × List Char) := do
  let (high, cs) ← readHex cs
  if 0xDC00 ≤ high ∧ high ≤ 0xDFFF then .error .malformed
  else if high < 0xD800 ∨ 0xDBFF < high then return (Char.ofNat high, cs)
  else
    let cs ← readWord ['\\', 'u'] cs
    let (low, cs) ← readHex cs
    if low < 0xDC00 ∨ 0xDFFF < low then .error .malformed
    else return (Char.ofNat (0x10000 + (high - 0xD800) * 0x400 + (low - 0xDC00)), cs)

/-- Reads a string after its opening quote. -/
def readChars : Nat → List Char → Except ReadError (List Char × List Char)
  | 0, _ => .error .ended
  | _, [] => .error .ended
  | fuel + 1, c :: cs =>
    if c = '"' then .ok ([], cs)
    else if c.toNat < 0x20 then .error .malformed
    else if c ≠ '\\' then do
      let (chars, cs) ← readChars fuel cs
      return (c :: chars, cs)
    else
      match cs with
      | [] => .error .ended
      | 'u' :: cs => do
        let (c, cs) ← readUnicode cs
        let (chars, cs) ← readChars fuel cs
        return (c :: chars, cs)
      | e :: cs =>
        match plainEscape? e with
        | none => .error .malformed
        | some c => do
          let (chars, cs) ← readChars fuel cs
          return (c :: chars, cs)

/-- Reads a string after its opening quote. -/
def readText (cs : List Char) : Except ReadError (String × List Char) := do
  let (chars, cs) ← readChars (cs.length + 1) cs
  return (String.ofList chars, cs)

/-- Passes over a string after its opening quote. -/
def skipChars : Nat → List Char → Except ReadError (List Char)
  | 0, _ => .error .ended
  | _, [] => .error .ended
  | fuel + 1, c :: cs =>
    if c = '"' then .ok cs
    else if c.toNat < 0x20 then .error .malformed
    else if c ≠ '\\' then skipChars fuel cs
    else
      match cs with
      | [] => .error .ended
      | 'u' :: cs => do
        let (_, cs) ← readHex cs
        skipChars fuel cs
      | e :: cs => if (plainEscape? e).isSome then skipChars fuel cs else .error .malformed

/-- What stands at the front of an array: its end, or its next item.  After the first item a
comma comes between. -/
def nextItem (first : Bool) (cs : List Char) : Except ReadError (Bool × List Char) :=
  match skipBlank cs with
  | [] => .error .ended
  | ']' :: rest => .ok (false, rest)
  | c :: rest =>
    if first then .ok (true, c :: rest)
    else if c ≠ ',' then .error .malformed
    else
      match skipBlank rest with
      | [] => .error .ended
      | ']' :: _ => .error .malformed
      | rest => .ok (true, rest)

/-- What stands at the front of an object: its end, or the text after the opening quote of its
next key. -/
def nextKey (first : Bool) (cs : List Char) : Except ReadError (Bool × List Char) :=
  match skipBlank cs with
  | [] => .error .ended
  | '}' :: rest => .ok (false, rest)
  | c :: rest =>
    if first then
      if c = '"' then .ok (true, rest) else .error .malformed
    else if c ≠ ',' then .error .malformed
    else
      match skipBlank rest with
      | [] => .error .ended
      | '"' :: rest => .ok (true, rest)
      | _ => .error .malformed

/-- Reads the colon after a key. -/
def readColon (cs : List Char) : Except ReadError (List Char) :=
  match skipBlank cs with
  | [] => .error .ended
  | ':' :: rest => .ok rest
  | _ => .error .malformed

mutual

/-- Reads a value in at most `depth` further levels of arrays and objects. -/
def readValue : Nat → Nat → List Char → Except ReadError (Json × List Char)
  | 0, _, _ => .error .malformed
  | fuel + 1, depth, cs =>
    match skipBlank cs with
    | [] => .error .ended
    | 'n' :: rest => do return (.null, ← readWord ['u', 'l', 'l'] rest)
    | 't' :: rest => do return (.bool true, ← readWord ['r', 'u', 'e'] rest)
    | 'f' :: rest => do return (.bool false, ← readWord ['a', 'l', 's', 'e'] rest)
    | '-' :: rest => readNumber true rest
    | '"' :: rest => do
      let (s, rest) ← readText rest
      return (.text s, rest)
    | '[' :: rest =>
      match depth with
      | 0 => .error .malformed
      | depth + 1 => do
        let (items, rest) ← readItems fuel depth true rest
        return (.array items, rest)
    | '{' :: rest =>
      match depth with
      | 0 => .error .malformed
      | depth + 1 => do
        let (members, rest) ← readMembers fuel depth true [] rest
        return (.object members, rest)
    | c :: rest => if c.isDigit then readNumber false (c :: rest) else .error .malformed

/-- Reads the items of an array up to its end. -/
def readItems : Nat → Nat → Bool → List Char → Except ReadError (List Json × List Char)
  | 0, _, _, _ => .error .malformed
  | fuel + 1, depth, first, cs => do
    match ← nextItem first cs with
    | (false, rest) => return ([], rest)
    | (true, rest) =>
      let (item, rest) ← readValue fuel depth rest
      let (items, rest) ← readItems fuel depth false rest
      return (item :: items, rest)

/-- Reads the members of an object up to its end, on top of those read before. -/
def readMembers : Nat → Nat → Bool → List (String × Json) → List Char →
    Except ReadError (List (String × Json) × List Char)
  | 0, _, _, _, _ => .error .malformed
  | fuel + 1, depth, first, members, cs => do
    match ← nextKey first cs with
    | (false, rest) => return (members, rest)
    | (true, rest) =>
      let (key, rest) ← readText rest
      let rest ← readColon rest
      let (value, rest) ← readValue fuel depth rest
      readMembers fuel depth false (put key value members) rest

end

mutual

/-- Passes over a value. -/
def skipValue : Nat → List Char → Except ReadError (List Char)
  | 0, _ => .error .malformed
  | fuel + 1, cs =>
    match skipBlank cs with
    | [] => .error .ended
    | 'n' :: rest => readWord ['u', 'l', 'l'] rest
    | 't' :: rest => readWord ['r', 'u', 'e'] rest
    | 'f' :: rest => readWord ['a', 'l', 's', 'e'] rest
    | '-' :: rest => skipNumber rest
    | '"' :: rest => skipChars (rest.length + 1) rest
    | '[' :: rest => skipItems fuel true rest
    | '{' :: rest => skipMembers fuel true rest
    | c :: rest => if c.isDigit then skipNumber (c :: rest) else .error .malformed

def skipItems : Nat → Bool → List Char → Except ReadError (List Char)
  | 0, _, _ => .error .malformed
  | fuel + 1, first, cs => do
    match ← nextItem first cs with
    | (false, rest) => return rest
    | (true, rest) => skipItems fuel false (← skipValue fuel rest)

def skipMembers : Nat → Bool → List Char → Except ReadError (List Char)
  | 0, _, _ => .error .malformed
  | fuel + 1, first, cs => do
    match ← nextKey first cs with
    | (false, rest) => return rest
    | (true, rest) =>
      let rest ← readColon (← skipChars (rest.length + 1) rest)
      skipMembers fuel false (← skipValue fuel rest)

end

/-- Fuel enough for a text. -/
def fuelFor (cs : List Char) : Nat := 2 * cs.length + 2

/-- Nothing but blanks follows. -/
def readEnd (cs : List Char) : Except ReadError Unit :=
  if skipBlank cs = [] then .ok () else .error .malformed

/-- Reads a text that holds one value, nested at most `depth` deep. -/
def read (depth : Nat) (text : String) : Except ReadError Json := do
  let cs := text.toList
  let (value, rest) ← readValue (fuelFor cs) depth cs
  readEnd rest
  return value

/-- The arrays and objects of a payload nest at most this deep. -/
def payloadDepth : Nat := 127

/-- The payload of a module event: nothing when there is no text or it cannot be read. -/
def payload? (text : Option String) : Option Json :=
  text.bind fun t => (read payloadDepth t).toOption

end ScriptHost.Json
