/-
The double nearest to a quotient: decimals and differences.

`nearest n d` is the pattern nearest to the quotient `n / d`, a tie going to the even one.  The
quotient is rounded once, on the grid of the doubles of its size: the place of its leading bit
gives the grid, and below the least normal number the grid stays as it is.  On any grid the
pattern is the number of steps from zero, so a quotient that rounds up to the next power of two
needs no care.

`ofDecimal` rounds a decimal in this way, and `sub` the difference of two doubles.
-/
import ScriptHost.Binary64.Basic

namespace ScriptHost.Binary64

/-- The integer nearest to `n / d`, the even one on a tie. -/
def nearestQuotient (n d : Nat) : Nat :=
  let whole := n / d
  match compare (2 * (n % d)) d with
  | .lt => whole
  | .gt => whole + 1
  | .eq => whole + whole % 2

/-- The place of the leading bit of `n / d`: the greatest `k` with `2 ^ k ≤ n / d`. -/
def leadingBit (n d : Nat) : Int :=
  let k : Int := (n.log2 : Int) - d.log2
  if d * Nat.pow 2 k.toNat ≤ n * Nat.pow 2 (-k).toNat then k else k - 1

/-- The pattern nearest to `n / d`; too large a quotient goes to infinity. -/
def nearest (n d : Nat) : Binary64 :=
  if n = 0 then zero
  else
    let step := max (leadingBit n d - 52) (-1074)
    let steps := nearestQuotient (n * Nat.pow 2 (-step).toNat) (d * Nat.pow 2 step.toNat)
    let pattern := (step + 1074).toNat * Nat.pow 2 52 + steps
    if infinity.bits.toNat ≤ pattern then infinity else ⟨UInt64.ofNat pattern⟩

/-- The pattern nearest to `coefficient * 10 ^ e`.  A number of more than 310 digits before the
point is too large for every double, one with 400 zeros behind the point too small. -/
def ofDecimal (coefficient : Nat) (e : Int) : Binary64 :=
  let size : Int := (Nat.toDigits 10 coefficient).length + e
  if coefficient = 0 ∨ size < -400 then zero
  else if 310 < size then infinity
  else nearest (coefficient * Nat.pow 10 e.toNat) (Nat.pow 10 (-e).toNat)

example : ofDecimal 5 (-1) = ⟨0x3fe0000000000000⟩ := by decide +kernel
example : ofDecimal 9007199254740993 0 = ofDecimal 9007199254740992 0 := by decide +kernel
example : ofDecimal 22250738585072011 (-324) = ⟨0x000fffffffffffff⟩ := by decide +kernel

/-- The difference of two numbers, rounded to the nearest.  A difference of nothing is the positive
zero, except that the negative zero stays what it is when the positive one is taken from it. -/
def sub (x y : Binary64) : Binary64 :=
  if x.isNaN ∨ y.isNaN then nan
  else if ¬ x.isFinite then if x = y then nan else x
  else if ¬ y.isFinite then y.neg
  else
    let difference := x.units - y.units
    if difference = 0 then if x = negativeZero ∧ y = zero then negativeZero else zero
    else
      let size := nearest difference.natAbs (Nat.pow 2 1074)
      if difference < 0 then size.neg else size

end ScriptHost.Binary64
