/-
The shortest decimal of a double, and how it is laid out as text.

`shortest` gives the decimal nearest to the number on the first grid, from one significant digit
to seventeen, on which the nearest decimal still rounds to the number.  It works in exact
natural-number arithmetic, so each grid is settled by one comparison and one test.

`Layout.write` turns sign, digits and decimal point into text.  A layout is one record; the
library has two, `scriptLayout` for numbers that a script sees and `plainLayout` for numbers in
descriptions of objects.
-/
import ScriptHost.Binary64.Basic

namespace ScriptHost.Binary64

/-- The decimal `coefficient * 10 ^ exponent`. -/
structure Decimal where
  coefficient : Nat
  exponent : Int
  deriving DecidableEq, Repr

/-- Compares `a * 10 ^ p` with `b * 2 ^ q`. -/
def compareScaled (a : Nat) (p : Int) (b : Nat) (q : Int) : Ordering :=
  compare (a * Nat.pow 10 p.toNat * Nat.pow 2 (-q).toNat)
    (b * Nat.pow 2 q.toNat * Nat.pow 10 (-p).toNat)

/-- The ends of the rounding interval, in quarters of the last place: `lower * 2 ^ (power - 2)`
and `upper * 2 ^ (power - 2)`.  Below a power of two the neighbours are half as far apart. -/
def roundingBounds (x : Binary64) : Nat × Nat :=
  let m := x.significand
  let gap := if x.fraction = 0 ∧ 1 < x.biasedExponent then 1 else 2
  (4 * m - gap, 4 * m + 2)

/-- The decimal `c * 10 ^ p` rounds to the absolute value of `x`; the ends of the interval count
when the significand is even. -/
def roundsTo (x : Binary64) (c : Nat) (p : Int) : Bool :=
  let (lower, upper) := x.roundingBounds
  let low := compareScaled c p lower (x.power - 2)
  let high := compareScaled c p upper (x.power - 2)
  if x.significand % 2 = 0 then low ≠ .lt ∧ high ≠ .gt else low = .gt ∧ high = .lt

/-- The quotient `significand * 2 ^ power / 10 ^ p`, rounded down. -/
def scaledFloor (x : Binary64) (p : Int) : Nat :=
  (x.significand * Nat.pow 2 x.power.toNat * Nat.pow 10 (-p).toNat) /
    (Nat.pow 2 (-x.power).toNat * Nat.pow 10 p.toNat)

/-- The decimal exponent of the leading digit of a finite nonzero number. -/
def leadingExponent (x : Binary64) : Int :=
  (Nat.toDigits 10 (x.scaledFloor (-400))).length - 401

/-- The multiple of `10 ^ p` nearest to `x`, the even one on a tie. -/
def nearestOnGrid (x : Binary64) (p : Int) : Nat :=
  let c := x.scaledFloor p
  match compareScaled (2 * c + 1) p x.significand (x.power + 1) with
  | .gt => c
  | .lt => c + 1
  | .eq => c + c % 2

/-- The multiple of `10 ^ p` nearest to `x`, if it rounds to `x`. -/
def onGrid? (x : Binary64) (p : Int) : Option Nat :=
  let c := x.nearestOnGrid p
  if c ≠ 0 ∧ x.roundsTo c p then some c else none

/-- Removes the trailing zeros of a coefficient, at most `steps` of them. -/
def stripZeros : Nat → Decimal → Decimal
  | 0, d => d
  | steps + 1, d =>
    if d.coefficient % 10 = 0 ∧ d.coefficient ≠ 0 then
      stripZeros steps ⟨d.coefficient / 10, d.exponent + 1⟩
    else d

/-- The nearest decimal on the first grid, from one digit to seventeen, where it rounds to `x`. -/
def shortest (x : Binary64) : Decimal :=
  let top := x.leadingExponent
  let found := (List.range 17).findSome? fun (n : Nat) =>
    (x.onGrid? (top - n)).map fun c => stripZeros 20 ⟨c, top - n⟩
  found.getD ⟨x.scaledFloor (top - 16), top - 16⟩

/-- How a number is written. -/
structure Layout where
  /-- The least place of the decimal point (counted from the first digit) written positionally. -/
  leastPoint : Int
  /-- The greatest place of the decimal point written positionally. -/
  greatestPoint : Int
  /-- What follows a whole number that is written positionally. -/
  wholeSuffix : String
  /-- What stands between `e` and an exponent that is not negative. -/
  exponentPlus : String
  /-- The text of the zero with a sign. -/
  signedZero : String
  /-- The text of the positive infinity. -/
  infinity : String

/-- Numbers in scripts: positional from `0.000001` to below `10 ^ 21`, whole numbers bare, the
sign of zero dropped. -/
def scriptLayout : Layout := ⟨-5, 21, "", "+", "0", "Infinity"⟩

/-- Numbers in descriptions: positional from `0.0001` to below `10 ^ 16`, whole numbers with
`.0`. -/
def plainLayout : Layout := ⟨-3, 16, ".0", "", "-0.0", "inf"⟩

/-- The text of a number: `NaN`, an infinity, or sign and digits as the layout says. -/
def Layout.write (layout : Layout) (x : Binary64) : String :=
  if x.isNaN then "NaN"
  else if x = Binary64.negativeZero then layout.signedZero
  else
    let sign := if x.isNegative then "-" else ""
    if ¬ x.isFinite then sign ++ layout.infinity
    else if x.isZero then "0" ++ layout.wholeSuffix
    else
      let d := x.shortest
      let digits := Nat.toDigits 10 d.coefficient
      let point : Int := digits.length + d.exponent
      let zeros (n : Int) : List Char := List.replicate n.toNat '0'
      let body : String :=
        if layout.leastPoint ≤ point ∧ point ≤ layout.greatestPoint then
          if digits.length ≤ point then
            String.ofList (digits ++ zeros (point - digits.length)) ++ layout.wholeSuffix
          else if 0 < point then
            String.ofList (digits.take point.toNat) ++ "." ++
              String.ofList (digits.drop point.toNat)
          else "0." ++ String.ofList (zeros (-point) ++ digits)
        else
          let power := point - 1
          let tail := if digits.length = 1 then "" else "." ++ String.ofList (digits.drop 1)
          let power := if power < 0 then toString power else layout.exponentPlus ++ toString power
          String.ofList (digits.take 1) ++ tail ++ "e" ++ power
      sign ++ body

end ScriptHost.Binary64
