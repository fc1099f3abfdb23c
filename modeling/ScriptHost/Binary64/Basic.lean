/-
Binary floating point, by bits.

A `Binary64` is the 64-bit pattern of an IEEE 754 double.  Start times, durations and script
numbers are kept as patterns, so that a negative zero and every NaN stay what they are:

* `integer?` — the integer a pattern stands for, if it stands for one (`-0` stands for `0`);
* `ofInt` — the nearest pattern to an integer, a tie going to the even significand;
* `orderKey` — the place of a pattern in the IEEE total order, as an integer;
* `lt` — the comparison of numbers, in which the two zeros are equal and no NaN takes part;
* `truncate` — the integer toward zero, held between two bounds.

All of this is arithmetic of integers.  `ofFloat` and `toFloat` are the passage to the floating
point operations of the machine.
-/

namespace ScriptHost

/-- A double, as its bit pattern. -/
structure Binary64 where
  bits : UInt64
  deriving DecidableEq, Inhabited, Repr

namespace Binary64

def ofFloat (x : Float) : Binary64 := ⟨x.toBits⟩

def toFloat (x : Binary64) : Float := Float.ofBits x.bits

/-- The sign bit is set. -/
def isNegative (x : Binary64) : Bool := Nat.pow 2 63 ≤ x.bits.toNat

/-- The pattern without its sign. -/
def magnitude (x : Binary64) : Nat := x.bits.toNat % Nat.pow 2 63

def biasedExponent (x : Binary64) : Nat := x.magnitude / Nat.pow 2 52

def fraction (x : Binary64) : Nat := x.magnitude % Nat.pow 2 52

def isFinite (x : Binary64) : Bool := x.biasedExponent ≠ 2047

def isNaN (x : Binary64) : Bool := x.biasedExponent = 2047 ∧ x.fraction ≠ 0

def isZero (x : Binary64) : Bool := x.magnitude = 0

/-- The integer significand: a finite `x` has the absolute value `significand * 2 ^ power`. -/
def significand (x : Binary64) : Nat :=
  if x.biasedExponent = 0 then x.fraction else x.fraction + Nat.pow 2 52

/-- The power of two that goes with `significand`. -/
def power (x : Binary64) : Int := (max x.biasedExponent 1 : Nat) - 1075

def zero : Binary64 := ⟨0⟩
def negativeZero : Binary64 := ⟨0x8000000000000000⟩
def infinity : Binary64 := ⟨0x7ff0000000000000⟩
def negativeInfinity : Binary64 := ⟨0xfff0000000000000⟩
def nan : Binary64 := ⟨0x7ff8000000000000⟩

/-- The same number with the other sign. -/
def neg (x : Binary64) : Binary64 :=
  ⟨UInt64.ofNat (if x.isNegative then x.magnitude else x.magnitude + Nat.pow 2 63)⟩

/-- Rounds `n / 2 ^ shift` to the nearest integer, a tie going to the even one. -/
def roundShift (n shift : Nat) : Nat :=
  let whole := n / Nat.pow 2 shift
  let rest := n % Nat.pow 2 shift
  let half := Nat.pow 2 shift / 2
  if rest < half ∨ shift = 0 then whole
  else if half < rest then whole + 1
  else whole + whole % 2

/-- The pattern nearest to a natural number; too large a number goes to infinity. -/
def ofNat (n : Nat) : Binary64 :=
  if n = 0 then zero
  else
    let top := n.log2
    let scaled := if top ≤ 52 then n * Nat.pow 2 (52 - top) else roundShift n (top - 52)
    let pattern := (top + 1023) * Nat.pow 2 52 + (scaled - Nat.pow 2 52)
    if infinity.bits.toNat ≤ pattern then infinity else ⟨UInt64.ofNat pattern⟩

/-- The pattern nearest to an integer; `0` goes to the positive zero. -/
def ofInt (i : Int) : Binary64 :=
  if i < 0 then (ofNat i.natAbs).neg else ofNat i.natAbs

/-- The value of a finite pattern, counted in units of the least positive number `2 ^ (-1074)`. -/
def units (x : Binary64) : Int :=
  let size := x.significand * Nat.pow 2 (x.power + 1074).toNat
  if x.isNegative then -(size : Int) else size

/-- The natural number that the absolute value of a finite pattern is, if it is one. -/
def wholeMagnitude? (x : Binary64) : Option Nat :=
  if ¬ x.isFinite then none
  else if 0 ≤ x.power then some (x.significand * Nat.pow 2 x.power.toNat)
  else if x.significand % Nat.pow 2 (-x.power).toNat = 0 then
    some (x.significand / Nat.pow 2 (-x.power).toNat)
  else none

/-- The integer a pattern stands for, if it stands for one. -/
def integer? (x : Binary64) : Option Int :=
  x.wholeMagnitude?.map fun n => if x.isNegative then -(n : Int) else n

/-- A number that has nothing after the point. -/
def isWhole (x : Binary64) : Bool := x.wholeMagnitude?.isSome

/-- The value of a number as an integer that grows with it: its magnitude, with its sign. -/
def signed (x : Binary64) : Int := if x.isNegative then -(x.magnitude : Int) else x.magnitude

/-- The first number is less than the second. -/
def lt (x y : Binary64) : Bool := ¬ x.isNaN ∧ ¬ y.isNaN ∧ x.signed < y.signed

/-- The integer that remains when the part after the point is cut off and the result is held
between `least` and `greatest`; a NaN gives `0`. -/
def truncate (least greatest : Int) (x : Binary64) : Int :=
  if x.isNaN then 0
  else
    let size : Nat :=
      if 0 ≤ x.power then x.significand * Nat.pow 2 x.power.toNat
      else x.significand / Nat.pow 2 (-x.power).toNat
    max least (min greatest (if x.isNegative then -(size : Int) else size))

/-- The place of a pattern in the IEEE total order: negative patterns come first, the larger the
magnitude the earlier, so that `-0` stands just before `0` and the NaNs stand at the two ends. -/
def orderKey (x : Binary64) : Int :=
  if x.isNegative then -(x.magnitude : Int) - 1 else x.magnitude

/-- The pattern `x` comes no later than `y` in the total order. -/
def totalLe (x y : Binary64) : Bool := x.orderKey ≤ y.orderKey

/-- The sixteen hexadecimal digits of a pattern. -/
def hex (x : Binary64) : String :=
  let digits := (Nat.toDigits 16 x.bits.toNat)
  String.ofList (List.replicate (16 - digits.length) '0' ++ digits)

/-- The pattern written by sixteen hexadecimal digits. -/
def ofHex? (s : String) : Option Binary64 :=
  let digit (c : Char) : Option Nat :=
    if '0' ≤ c ∧ c ≤ '9' then some (c.toNat - 48)
    else if 'a' ≤ c ∧ c ≤ 'f' then some (c.toNat - 87)
    else if 'A' ≤ c ∧ c ≤ 'F' then some (c.toNat - 55)
    else none
  (s.toList.foldlM (fun n c => (digit c).map (n * 16 + ·)) 0).map fun n => ⟨UInt64.ofNat n⟩

end Binary64
end ScriptHost
