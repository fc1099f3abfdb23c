/-
Reading JSON numbers.

A number is read into a 64-bit significand and a power of ten.  Digits that the significand has
no room for are dropped, and the number becomes a double by one multiplication or division by a
power of ten: `significand * 10 ^ e` rounded twice, not the double nearest to the text.  A number
that overflows is malformed, one that underflows is zero.

`readNumber` reads a number whose value is wanted, `skipNumber` one whose value is not: it checks
the grammar only, and an unfinished number is malformed to it, while to `readNumber` the text
ended too early.
-/
import ScriptHost.Json.Basic

namespace ScriptHost.Json

/-- Why a text was not read. -/
inductive ReadError where
  /-- The text ended too early. -/
  | ended
  /-- The text is not JSON, or goes on after its value. -/
  | malformed
  /-- The value is of the wrong type, out of range, or a repeated field. -/
  | unsuitable
  deriving DecidableEq, Repr

def digitOf (c : Char) : Nat := c.toNat - 48

/-- The digits at the front of a text, and the rest. -/
def spanDigits (cs : List Char) : List Char × List Char :=
  (cs.takeWhile Char.isDigit, cs.dropWhile Char.isDigit)

/-- The greatest significand. -/
def greatestSignificand : Nat := Nat.pow 2 64 - 1

/-- Appends digits to a significand as long as there is room; the second component counts the
digits left over. -/
def appendDigits (significand : Nat) : List Char → Nat × Nat
  | [] => (significand, 0)
  | c :: rest =>
    let next := significand * 10 + digitOf c
    if next ≤ greatestSignificand then appendDigits next rest else (significand, rest.length + 1)

def powerOfTen (n : Nat) : Float := Float.ofScientific 1 false n

/-- The product `x * 10 ^ e` in double arithmetic, through powers of ten up to the 308th; nothing
when it overflows. -/
def scaleTen : Nat → Float → Int → Option Float
  | 0, _, _ => none
  | steps + 1, x, e =>
    if e.natAbs ≤ 308 then
      if 0 ≤ e then
        let y := x * powerOfTen e.natAbs
        if y.isInf then none else some y
      else some (x / powerOfTen e.natAbs)
    else if x == 0.0 then some x
    else if 0 ≤ e then none
    else scaleTen steps (x / powerOfTen 308) (e + 308)

/-- The double of a significand and a power of ten.  Four divisions by `10 ^ 308` bring every
significand to zero. -/
def ofScaled (negative : Bool) (significand : Nat) (e : Int) : Except ReadError Json :=
  match scaleTen 5 (UInt64.ofNat significand).toFloat e with
  | none => .error .malformed
  | some x =>
    let x := Binary64.ofFloat x
    .ok (.real (if negative then x.neg else x))

/-- Exponents past this one are not added up any further. -/
def greatestExponent : Nat := Nat.pow 2 31 - 1

/-- Reads the exponent after its `e`. -/
def readExponent (negative : Bool) (significand : Nat) (e : Int) (cs : List Char) :
    Except ReadError (Json × List Char) :=
  let (down, cs) : Bool × List Char :=
    match cs with
    | '+' :: rest => (false, rest)
    | '-' :: rest => (true, rest)
    | _ => (false, cs)
  match spanDigits cs with
  | ([], []) => .error .ended
  | ([], _ :: _) => .error .malformed
  | (digits, rest) =>
    let size := digits.foldl (fun n c => n * 10 + digitOf c) 0
    if greatestExponent < size then
      if significand ≠ 0 ∧ ¬ down then .error .malformed
      else .ok (.real (if negative then .negativeZero else .zero), rest)
    else do
      let j ← ofScaled negative significand (if down then e - size else e + size)
      return (j, rest)

/-- Reads what may follow the digits before the point, or after it. -/
def readScale (negative : Bool) (significand : Nat) (e : Int) :
    List Char → Except ReadError (Json × List Char)
  | 'e' :: rest | 'E' :: rest => readExponent negative significand e rest
  | rest => do
    let j ← ofScaled negative significand e
    return (j, rest)

/-- Reads the digits after the point. -/
def readFraction (negative : Bool) (significand : Nat) (e : Int) (cs : List Char) :
    Except ReadError (Json × List Char) :=
  match spanDigits cs with
  | ([], []) => .error .ended
  | ([], _ :: _) => .error .malformed
  | (digits, rest) =>
    let (sum, left) := appendDigits significand digits
    readScale negative sum (e - (digits.length - left : Nat)) rest

/-- A whole number: an integer if it fits a 64-bit word and is not `-0`. -/
def ofWhole (negative : Bool) (n : Nat) : Json :=
  if ¬ negative then .int n
  else if 0 < n ∧ n ≤ Nat.pow 2 63 then .int (-n)
  else .real (Binary64.ofNat n).neg

/-- Reads a number after its sign. -/
def readNumber (negative : Bool) (cs : List Char) : Except ReadError (Json × List Char) :=
  match spanDigits cs with
  | ([], []) => .error .ended
  | ([], _ :: _) => .error .malformed
  | (digits, rest) =>
    if digits.head? = some '0' ∧ 1 < digits.length then .error .malformed
    else
      let (significand, left) := appendDigits 0 digits
      match rest with
      | '.' :: rest => readFraction negative significand left rest
      | 'e' :: rest | 'E' :: rest => readExponent negative significand left rest
      | rest =>
        if left = 0 then .ok (ofWhole negative significand, rest)
        else do
          let j ← ofScaled negative significand left
          return (j, rest)

/-- At least one digit, and the rest. -/
def skipDigits (cs : List Char) : Except ReadError (List Char) :=
  match spanDigits cs with
  | ([], _) => .error .malformed
  | (_, rest) => .ok rest

/-- Passes over an exponent, if there is one. -/
def skipExponent : List Char → Except ReadError (List Char)
  | 'e' :: rest | 'E' :: rest =>
    match rest with
    | '+' :: rest | '-' :: rest => skipDigits rest
    | rest => skipDigits rest
  | rest => .ok rest

/-- Passes over a number after its sign. -/
def skipNumber (cs : List Char) : Except ReadError (List Char) :=
  match spanDigits cs with
  | ([], _) => .error .malformed
  | (digits, rest) =>
    if digits.head? = some '0' ∧ 1 < digits.length then .error .malformed
    else
      match rest with
      | '.' :: rest => do skipExponent (← skipDigits rest)
      | rest => skipExponent rest

end ScriptHost.Json
