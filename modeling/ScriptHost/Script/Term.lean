/-
Terms: the expressions that a script states as text.

A term is a literal or a name, and goes on by members and calls, as `a.b('x', -1)[0].c` does; in
front of it a sign or one of the words `typeof`, `void` and `new` may stand.
`Term.read` reads the text of a term; it ends before the first thing that is not of this form.
Numbers are read to the nearest double.
-/
import ScriptHost.Json.Reader
import ScriptHost.Binary64.Nearest

namespace ScriptHost.Script

inductive Term where
  | name (name : String)
  | number (x : Binary64)
  | bigint (i : Int)
  | text (s : String)
  | array (items : List Term)
  | object (members : List (String × Term))
  /-- The place of an absent item of an array. -/
  | hole
  | minus (t : Term)
  | plus (t : Term)
  | not (t : Term)
  /-- What kind of value a term has; a name that stands for nothing is no fault here. -/
  | typeOf (t : Term)
  /-- Evaluates a term and forgets its value. -/
  | void (t : Term)
  /-- The member of an owner under a name. -/
  | member (owner : Term) (name : String)
  /-- The member of an owner under a computed key. -/
  | item (owner key : Term)
  | call (callee : Term) (args : List Term)
  /-- A new instance of what the constructor makes. -/
  | construct (constructor : Term) (args : List Term)

instance : Inhabited Term := ⟨.name ""⟩

namespace Term

open Json (skipBlank hexValue?)

/-! ### Names -/

/-- The character may stand in a name. -/
def isNamed (c : Char) : Bool := c.isAlphanum ∨ c = '_' ∨ c = '$' ∨ 0x80 ≤ c.toNat

/-- The name at the front of a text, and the rest. -/
def spanName (cs : List Char) : String × List Char :=
  (String.ofList (cs.takeWhile isNamed), cs.dropWhile isNamed)

/-! ### Numbers -/

def digit? (base : Nat) (c : Char) : Option Nat := (hexValue? c).filter (· < base)

/-- The digits at the front of a text, and the rest; low lines between digits count for nothing. -/
def spanDigits (base : Nat) (cs : List Char) : List Nat × List Char :=
  let inside := cs.takeWhile fun c => (digit? base c).isSome ∨ c = '_'
  (inside.filterMap (digit? base), cs.drop inside.length)

def ofDigits (base : Nat) (digits : List Nat) : Nat := digits.foldl (fun n d => n * base + d) 0

/-- The base that a letter behind a leading zero announces. -/
def base? (c : Char) : Option Nat :=
  if c = 'x' ∨ c = 'X' then some 16
  else if c = 'o' ∨ c = 'O' then some 8
  else if c = 'b' ∨ c = 'B' then some 2
  else none

/-- The sign of an exponent, and the rest: whether it is negative. -/
def spanSign : List Char → Bool × List Char
  | '-' :: rest => (true, rest)
  | '+' :: rest => (false, rest)
  | cs => (false, cs)

/-- The exponent at the front of a text, and the rest; without one it is zero. -/
def spanExponent (cs : List Char) : Int × List Char :=
  match cs with
  | [] => (0, [])
  | c :: rest =>
    if c = 'e' ∨ c = 'E' then
      let (down, rest) := spanSign rest
      match spanDigits 10 rest with
      | ([], _) => (0, cs)
      | (digits, rest) =>
        let size : Int := ofDigits 10 digits
        (if down then -size else size, rest)
    else (0, cs)

/-- A number whose digits before the point are read. -/
def decimal (whole : List Nat) (cs : List Char) : Term × List Char :=
  let (parts, cs) : List Nat × List Char :=
    match cs with
    | '.' :: rest => spanDigits 10 rest
    | cs => ([], cs)
  let (e, cs) := spanExponent cs
  (.number (.ofDecimal (ofDigits 10 (whole ++ parts)) (e - parts.length)), cs)

/-- A number of digits in a base, whole and with no more to it unless the base is ten. -/
def numeral (base : Nat) (cs : List Char) : Term × List Char :=
  let (digits, rest) := spanDigits base cs
  match rest with
  | 'n' :: rest => (.bigint (ofDigits base digits), rest)
  | rest =>
    if base = 10 then decimal digits rest else (.number (.ofNat (ofDigits base digits)), rest)

/-- The number at the front of a text. -/
def spanNumber (cs : List Char) : Term × List Char :=
  match cs with
  | '0' :: c :: rest =>
    match base? c with
    | some base => numeral base rest
    | none => numeral 10 cs
  | cs => numeral 10 cs

/-! ### Texts -/

def isQuote (c : Char) : Bool := c = '"' ∨ c = '\x27' ∨ c = '\x60'

/-- The character that a letter behind a backslash stands for. -/
def escaped (c : Char) : Char :=
  match c with
  | 'n' => '\n'
  | 't' => '\t'
  | 'r' => '\r'
  | 'b' => '\x08'
  | 'f' => '\x0c'
  | 'v' => '\x0b'
  | '0' => '\x00'
  | c => c

/-- The character of a code of two hexadecimal digits. -/
def byteOf? (a b : Char) : Option Char := do
  return Char.ofNat ((← hexValue? a) * 16 + (← hexValue? b))

/-- The character of a code between braces, and the rest. -/
def braced? (cs : List Char) : Option (Char × List Char) :=
  let (digits, rest) := spanDigits 16 cs
  match digits, rest with
  | _ :: _, '\x7d' :: rest => some (Char.ofNat (ofDigits 16 digits), rest)
  | _, _ => none

/-- The characters up to the closing quote, and the rest. -/
def quoted? (quote : Char) : Nat → List Char → Option (List Char × List Char)
  | 0, _ => none
  | _, [] => none
  | fuel + 1, c :: cs =>
    if c = quote then some ([], cs)
    else do
      let (c, cs) ←
        if c ≠ '\\' then some (c, cs)
        else
          match cs with
          | 'u' :: '\x7b' :: cs => braced? cs
          | 'u' :: cs => (Json.readUnicode cs).toOption
          | 'x' :: a :: b :: cs => (byteOf? a b).map fun c => (c, cs)
          | e :: cs => some (escaped e, cs)
          | [] => none
      let (rest, cs) ← quoted? quote fuel cs
      return (c :: rest, cs)

/-! ### Terms -/

/-- What follows a closing character. -/
def after? (close : Char) (cs : List Char) : Option (List Char) :=
  match skipBlank cs with
  | c :: rest => if c = close then some rest else none
  | [] => none

/-- What follows an item: behind the comma, or the closing character. -/
def afterItem? (close : Char) (cs : List Char) : Option (List Char) :=
  match after? ',' cs with
  | some rest => some rest
  | none => (after? close cs).map fun _ => cs

/-- The key of a member, a name or a text, and the rest. -/
def key? (cs : List Char) : Option (String × List Char) :=
  match skipBlank cs with
  | [] => none
  | c :: rest =>
    if isQuote c then
      (quoted? c (rest.length + 1) rest).map fun (chars, rest) => (String.ofList chars, rest)
    else if isNamed c then some (spanName (c :: rest))
    else none

mutual

/-- The term at the front of a text, and the rest. -/
def term? : Nat → List Char → Option (Term × List Char)
  | 0, _ => none
  | fuel + 1, cs =>
    match skipBlank cs with
    | [] => none
    | '-' :: rest => (term? fuel rest).map fun (t, rest) => (.minus t, rest)
    | '+' :: rest => (term? fuel rest).map fun (t, rest) => (.plus t, rest)
    | '!' :: rest => (term? fuel rest).map fun (t, rest) => (.not t, rest)
    | '(' :: rest => do
      let (t, rest) ← term? fuel rest
      return steps fuel true t (← after? ')' rest)
    | '[' :: rest => do
      let (items, rest) ← items? fuel ']' true rest
      return steps fuel true (.array items) rest
    | '\x7b' :: rest => do
      let (members, rest) ← members? fuel rest
      return steps fuel true (.object members) rest
    | c :: rest =>
      if isQuote c then do
        let (chars, rest) ← quoted? c (rest.length + 1) rest
        return steps fuel true (.text (String.ofList chars)) rest
      else if c.isDigit ∨ c = '.' then
        let (t, rest) := spanNumber (c :: rest)
        some (steps fuel true t rest)
      else if isNamed c then
        let (word, rest) := spanName (c :: rest)
        if word = "new" then do
          let (cls, rest) := spanName (skipBlank rest)
          let (constructor, rest) := steps fuel false (.name cls) rest
          let (args, rest) ←
            match after? '(' rest with
            | some rest => items? fuel ')' false rest
            | none => some ([], rest)
          return steps fuel true (.construct constructor args) rest
        else if word = "typeof" then (term? fuel rest).map fun (t, rest) => (.typeOf t, rest)
        else if word = "void" then (term? fuel rest).map fun (t, rest) => (.void t, rest)
        else some (steps fuel true (.name word) rest)
      else none

/-- Items up to a closing character, with a comma behind each but perhaps the last; where
`gaps` allows it, an item may be absent. -/
def items? : Nat → Char → Bool → List Char → Option (List Term × List Char)
  | 0, _, _, _ => none
  | fuel + 1, close, gaps, cs =>
    match after? close cs, after? ',' cs with
    | some rest, _ => some ([], rest)
    | none, some rest =>
      if gaps then (items? fuel close gaps rest).map fun (ts, rest) => (.hole :: ts, rest)
      else none
    | none, none => do
      let (t, rest) ← term? fuel cs
      let (ts, rest) ← items? fuel close gaps (← afterItem? close rest)
      return (t :: ts, rest)

/-- Members up to the closing brace; a key alone stands for the name and its value. -/
def members? : Nat → List Char → Option (List (String × Term) × List Char)
  | 0, _ => none
  | fuel + 1, cs =>
    match after? '\x7d' cs with
    | some rest => some ([], rest)
    | none => do
      let (key, rest) ← key? cs
      let (t, rest) ←
        match after? ':' rest with
        | some rest => term? fuel rest
        | none => some (.name key, rest)
      let (ms, rest) ← members? fuel (← afterItem? '\x7d' rest)
      return ((key, t) :: ms, rest)

/-- A term with the members that follow it, and with the calls too if they belong to it, and the
rest. -/
def steps : Nat → Bool → Term → List Char → Term × List Char
  | 0, _, t, cs => (t, cs)
  | fuel + 1, calls, t, cs =>
    match skipBlank cs with
    | '.' :: rest =>
      let (key, rest) := spanName (skipBlank rest)
      steps fuel calls (.member t key) rest
    | '[' :: rest =>
      match term? fuel rest with
      | none => (t, cs)
      | some (key, rest) =>
        match after? ']' rest with
        | none => (t, cs)
        | some rest => steps fuel calls (.item t key) rest
    | '(' :: rest =>
      match if calls then items? fuel ')' false rest else none with
      | none => (t, cs)
      | some (args, rest) => steps fuel true (.call t args) rest
    | _ => (t, cs)

end

/-- The term of a text; a text that does not begin with a term is taken for a name. -/
def read (text : String) : Term :=
  let cs := text.toList
  match term? (Json.fuelFor cs) cs with
  | some (t, _) => t
  | none => .name text

end Term
end ScriptHost.Script
