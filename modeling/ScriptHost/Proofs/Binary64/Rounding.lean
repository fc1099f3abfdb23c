/-
Doubles nearest to a number, and differences.

`Rounds q z` says what it is to round a number without saying how: no finite pattern is nearer to
`q` than `z`, of two that are equally near it is the one with the even significand, and a number
beyond `overflow` goes to an infinity.  `Difference x y z` is the subtraction of IEEE 754, clause by
clause: what becomes of NaNs, infinities and zeros, and otherwise the exact difference, rounded.

* `rounds_nearest` — `nearest n d` rounds the quotient of `n` and `d`;
* `Rounds.unique` — a number is rounded to one pattern only;
* `difference_iff` — `sub` computes the difference.

Design notes: positive values grow with the magnitude of the pattern, so there is nothing between
a pattern and the next one, and what lies between their values has one of the two as its nearest.
-/
import ScriptHost.Binary64.Nearest
import ScriptHost.Proofs.Binary64.Integers
import Mathlib.Algebra.Order.Field.Power
import Mathlib.Algebra.Order.Floor.Semifield
import Mathlib.Data.Rat.Floor
import Mathlib.Tactic.Linarith

namespace ScriptHost.Binary64

variable {x y z : Binary64} {q : ℚ} {m n d a r : ℕ} {step : ℤ}

/-! ### What rounding is -/

/-- The finite pattern that is nearest to a number. -/
structure Nearest (q : ℚ) (z : Binary64) : Prop where
  finite : z.isFinite = true
  /-- A negative number that is too small for any other pattern becomes the negative zero. -/
  sign : z.isNegative = true ↔ q < 0
  closest : ∀ w : Binary64, w.isFinite = true → |q - z.toRat| ≤ |q - w.toRat|
  even : ∀ w : Binary64, w.isFinite = true → w.toRat ≠ z.toRat →
    |q - w.toRat| = |q - z.toRat| → Even z.significand

/-- Halfway from the greatest finite value to `2 ^ 1024`, which would be the next one. -/
def overflow : ℚ := (2 ^ 54 - 1) * 2 ^ (970 : ℤ)

/-- Rounding to the nearest; what is too large for that becomes infinite. -/
inductive Rounds (q : ℚ) (z : Binary64) : Prop
  | nearest (hq : |q| < overflow) (h : Nearest q z)
  | tooLarge (hq : overflow ≤ q) (hz : z = infinity)
  | tooSmall (hq : q ≤ -overflow) (hz : z = negativeInfinity)

/-- The difference of two doubles. -/
inductive Difference (x y z : Binary64) : Prop
  | notNumbers (h : x.isNaN = true ∨ y.isNaN = true) (hz : z = nan)
  | infinities (hx : x = infinity ∨ x = negativeInfinity) (hy : y = x) (hz : z = nan)
  | fromInfinity (hx : x = infinity ∨ x = negativeInfinity) (hy : y.isNaN = false) (hne : y ≠ x)
      (hz : z = x)
  | ofInfinity (hx : x.isFinite = true) (hy : y = infinity) (hz : z = negativeInfinity)
  | ofNegativeInfinity (hx : x.isFinite = true) (hy : y = negativeInfinity) (hz : z = infinity)
  | zeros (hx : x = negativeZero) (hy : y = zero) (hz : z = negativeZero)
  | nothing (hx : x.isFinite = true) (hy : y.isFinite = true) (heq : x.toRat = y.toRat)
      (hne : ¬ (x = negativeZero ∧ y = zero)) (hz : z = zero)
  | rounded (hx : x.isFinite = true) (hy : y.isFinite = true) (hne : x.toRat ≠ y.toRat)
      (h : Rounds (x.toRat - y.toRat) z)

/-! ### Patterns and their values -/

/-- The pattern of this magnitude with the positive sign. -/
def positive (m : ℕ) : Binary64 := ⟨UInt64.ofNat m⟩

theorem magnitude_positive (h : m < 9223372036854775808) : (positive m).magnitude = m := by
  have hbits : (positive m).bits.toNat = m := UInt64.toNat_ofNat_of_lt (Nat.lt_trans h (by decide))
  show (positive m).bits.toNat % 9223372036854775808 = m
  omega

theorem isNegative_positive (h : m < 9223372036854775808) : (positive m).isNegative = false := by
  have hbits : (positive m).bits.toNat = m := UInt64.toNat_ofNat_of_lt (Nat.lt_trans h (by decide))
  rw [Bool.eq_false_iff, ne_eq, isNegative_iff]
  omega

theorem bits_neg (x : Binary64) : x.neg.bits.toNat =
    if x.isNegative then x.magnitude else x.magnitude + 9223372036854775808 := by
  have hlt := x.magnitude_lt
  have hword : (if x.isNegative then x.magnitude else x.magnitude + 9223372036854775808) <
      18446744073709551616 := by
    split <;> omega
  exact UInt64.toNat_ofNat_of_lt hword

@[simp] theorem isNegative_neg (x : Binary64) : x.neg.isNegative = !x.isNegative := by
  have hlt := x.magnitude_lt
  have hbits := x.bits_neg
  rw [Bool.eq_iff_iff, isNegative_iff, hbits]
  cases x.isNegative with
  | true => simpa using hlt
  | false => simp

@[simp] theorem magnitude_neg (x : Binary64) : x.neg.magnitude = x.magnitude := by
  have hlt := x.magnitude_lt
  show x.neg.bits.toNat % 9223372036854775808 = x.magnitude
  rw [bits_neg]
  split <;> omega

@[simp] theorem neg_involutive (x : Binary64) : x.neg.neg = x :=
  eq_iff.mpr ⟨by simp, by simp⟩

@[simp] theorem isFinite_neg (x : Binary64) : x.neg.isFinite = x.isFinite := by
  rw [Bool.eq_iff_iff, isFinite_iff, isFinite_iff, magnitude_neg]

theorem size_of_magnitude_eq (h : x.magnitude = y.magnitude) : x.size = y.size := by
  rw [size_eq, size_eq, biasedExponent_eq, biasedExponent_eq, fraction_eq, fraction_eq, h]

/-- The last bit of the significand is that of the pattern. -/
theorem even_significand : Even x.significand ↔ Even x.magnitude := by
  have hfraction := fraction_eq x
  have hsignificand : x.significand =
      if x.biasedExponent = 0 then x.fraction else x.fraction + 4503599627370496 := rfl
  rw [Nat.even_iff, Nat.even_iff, hsignificand]
  split <;> omega

theorem sizeOfOne_cast_pos : (0 : ℚ) < sizeOfOne := Nat.cast_pos.mpr sizeOfOne_pos

theorem units_eq (x : Binary64) : x.units = if x.isNegative then -(x.size : ℤ) else x.size := rfl

theorem toRat_eq_units (x : Binary64) : x.toRat = x.units / sizeOfOne := by
  rw [eq_div_iff sizeOfOne_cast_pos.ne', toRat_mul, units_eq]

theorem toRat_of_positive (h : x.isNegative = false) : x.toRat = x.size / sizeOfOne := by
  rw [toRat_eq_units, units_eq, h]
  rfl

theorem toRat_neg (x : Binary64) : x.neg.toRat = -x.toRat := by
  have hsize : x.neg.size = x.size := size_of_magnitude_eq x.magnitude_neg
  rw [toRat_eq_units, toRat_eq_units, units_eq, units_eq, isNegative_neg, hsize]
  cases x.isNegative with
  | true =>
    show ((x.size : ℤ) : ℚ) / sizeOfOne = -(((-(x.size : ℤ) : ℤ) : ℚ) / sizeOfOne)
    rw [Int.cast_neg, neg_div, neg_neg]
  | false =>
    show ((-(x.size : ℤ) : ℤ) : ℚ) / sizeOfOne = -(((x.size : ℤ) : ℚ) / sizeOfOne)
    rw [Int.cast_neg, neg_div]

/-- Values grow with the magnitude, and there are no greater ones with the other sign. -/
theorem toRat_le_of_magnitude_le (hy : y.isNegative = false) (h : x.magnitude ≤ y.magnitude) :
    x.toRat ≤ y.toRat := by
  have hsize : x.size ≤ y.size := Nat.not_lt.mp (mt size_lt_iff.mp (Nat.not_lt.mpr h))
  rw [toRat_of_positive hy, toRat_eq_units, units_eq]
  refine div_le_div_of_nonneg_right ?_ sizeOfOne_cast_pos.le
  have hunits : (if x.isNegative then -(x.size : ℤ) else x.size) ≤ y.size := by
    split <;> omega
  exact_mod_cast hunits

theorem toRat_lt_of_magnitude_lt (hx : x.isNegative = false) (hy : y.isNegative = false)
    (h : x.magnitude < y.magnitude) : x.toRat < y.toRat := by
  rw [toRat_of_positive hx, toRat_of_positive hy]
  exact div_lt_div_of_pos_right (Nat.cast_lt.mpr (size_lt_of_magnitude_lt h)) sizeOfOne_cast_pos

theorem toRat_nonneg (h : x.isNegative = false) : 0 ≤ x.toRat := by
  rw [toRat_of_positive h]
  exact div_nonneg (Nat.cast_nonneg _) sizeOfOne_cast_pos.le

theorem toRat_nonpos (h : x.isNegative = true) : x.toRat ≤ 0 := by
  have hneg := toRat_nonneg (x := x.neg) (by simp [h])
  rw [toRat_neg] at hneg
  linarith

/-! ### Steps from zero -/

/-- So many steps of size `2 ^ step` from zero.  The carry of a significand of `2 ^ 53` goes to the
exponent. -/
def onGrid (step : ℤ) (r : ℕ) : Binary64 :=
  positive ((step + 1074).toNat * 4503599627370496 + r)

/-- The steps of a grid that are patterns: the significand is long enough, unless the grid is that
of the least numbers, and is not too long. -/
structure OnGrid (step : ℤ) (r : ℕ) : Prop where
  least : -1074 ≤ step
  greatest : step ≤ 971
  full : step = -1074 ∨ 4503599627370496 ≤ r
  short : r ≤ 9007199254740992

theorem OnGrid.word (h : OnGrid step r) :
    (step + 1074).toNat * 4503599627370496 + r < 9223372036854775808 := by
  have := h.greatest
  have := h.short
  omega

theorem OnGrid.magnitude (h : OnGrid step r) :
    (onGrid step r).magnitude = (step + 1074).toNat * 4503599627370496 + r :=
  magnitude_positive h.word

theorem OnGrid.positive (h : OnGrid step r) : (onGrid step r).isNegative = false :=
  isNegative_positive h.word

theorem OnGrid.even (h : OnGrid step r) : Even (onGrid step r).significand ↔ Even r := by
  rw [even_significand, h.magnitude, Nat.even_iff, Nat.even_iff]
  omega

/-- The size of a pattern that is put together of an exponent and a significand. -/
theorem size_of_magnitude {e : ℕ} (h : x.magnitude = e * 4503599627370496 + r)
    (hfull : e = 0 ∨ 4503599627370496 ≤ r) (hshort : r ≤ 9007199254740992) :
    x.size = r * 2 ^ e := by
  have hfraction := fraction_eq x
  rw [size_eq]
  rcases Nat.lt_or_ge r 4503599627370496 with hr | hr
  · obtain rfl : e = 0 := by omega
    have hexponent : x.biasedExponent = 0 := by
      rw [biasedExponent_eq]
      omega
    rw [hexponent, if_pos rfl]
    congr 1
    omega
  · rcases Nat.lt_or_eq_of_le hshort with hr' | rfl
    · have hexponent : x.biasedExponent = e + 1 := by
        rw [biasedExponent_eq]
        omega
      rw [hexponent, if_neg (Nat.succ_ne_zero e), Nat.add_sub_cancel]
      congr 1
      omega
    · -- the significand is twice the least one, at the next exponent
      have hexponent : x.biasedExponent = e + 2 := by
        rw [biasedExponent_eq]
        omega
      have hzero : x.fraction = 0 := by omega
      rw [hexponent, hzero, if_neg (Nat.succ_ne_zero _), Nat.add_sub_assoc (by decide)]
      rw [Nat.pow_add]
      omega

theorem OnGrid.toRat (h : OnGrid step r) : (onGrid step r).toRat = r * 2 ^ step := by
  have hleast := h.least
  have hshift : ((step + 1074).toNat : ℤ) = step + (1074 : ℕ) := Int.toNat_of_nonneg (by omega)
  have hsize : (onGrid step r).size = r * 2 ^ (step + 1074).toNat :=
    size_of_magnitude h.magnitude (h.full.imp (by omega) id) h.short
  rw [toRat_of_positive h.positive, hsize, div_eq_iff sizeOfOne_cast_pos.ne', sizeOfOne,
    Nat.cast_mul, Nat.cast_pow, Nat.cast_pow, Nat.cast_ofNat, ← zpow_natCast, hshift,
    zpow_add₀ two_ne_zero, zpow_natCast, mul_assoc]

/-- There is no value between a step and the next one. -/
theorem OnGrid.le_or_le (h : OnGrid step a) (h' : OnGrid step (a + 1)) (w : Binary64) :
    w.toRat / 2 ^ step ≤ a ∨ (a : ℚ) + 1 ≤ w.toRat / 2 ^ step := by
  have hpos : (0 : ℚ) < 2 ^ step := zpow_pos two_pos step
  have hnext : (onGrid step (a + 1)).toRat = (a + 1) * 2 ^ step := by
    rw [h'.toRat, Nat.cast_add, Nat.cast_one]
  rw [div_le_iff₀ hpos, le_div_iff₀ hpos, ← h.toRat, ← hnext]
  cases hw : w.isNegative with
  | true => exact Or.inl ((toRat_nonpos hw).trans (toRat_nonneg h.positive))
  | false =>
    rcases Nat.lt_or_ge (onGrid step a).magnitude w.magnitude with hlt | hle
    · refine Or.inr (toRat_le_of_magnitude_le hw ?_)
      rw [h'.magnitude]
      rw [h.magnitude] at hlt
      omega
    · exact Or.inl (toRat_le_of_magnitude_le h.positive hle)

/-! ### Rounding a quotient -/

/-- Of the neighbours `a` and `a + 1` of `t` the nearer one is taken, or else the even one. -/
inductive Chosen (t : ℚ) (a r : ℕ) : Prop
  | down (hr : r = a) (hle : t ≤ a + 1 / 2) (heven : t = a + 1 / 2 → Even r)
  | up (hr : r = a + 1) (hle : (a : ℚ) + 1 / 2 ≤ t) (heven : t = a + 1 / 2 → Even r)

theorem chosen_nearestQuotient (n : ℕ) (hd : 0 < d) :
    Chosen (n / d) (n / d : ℕ) (nearestQuotient n d) := by
  have hpos : (0 : ℚ) < d := Nat.cast_pos.mpr hd
  have hsplit : (n : ℚ) / d = (n / d : ℕ) + (n % d : ℕ) / d := by
    rw [div_eq_iff hpos.ne', add_mul, div_mul_cancel₀ _ hpos.ne']
    exact_mod_cast (Nat.div_add_mod' n d).symm
  rw [nearestQuotient]
  cases hcompare : compare (2 * (n % d)) d with
  | lt =>
    have hrest : ((n % d : ℕ) : ℚ) / d < 1 / 2 := by
      rw [div_lt_div_iff₀ hpos two_pos, one_mul, mul_comm]
      exact_mod_cast compare_lt_iff_lt.mp hcompare
    exact .down rfl (by linarith) fun h => absurd h (by linarith)
  | gt =>
    have hrest : (1 : ℚ) / 2 < (n % d : ℕ) / d := by
      rw [div_lt_div_iff₀ two_pos hpos, one_mul, mul_comm]
      exact_mod_cast compare_gt_iff_gt.mp hcompare
    exact .up rfl (by linarith) fun h => absurd h (by linarith)
  | eq =>
    have hrest : ((n % d : ℕ) : ℚ) / d = 1 / 2 := by
      rw [div_eq_div_iff hpos.ne' two_ne_zero, one_mul, mul_comm]
      exact_mod_cast compare_eq_iff_eq.mp hcompare
    dsimp only
    rcases Nat.mod_two_eq_zero_or_one (n / d) with heven | hodd
    · rw [heven]
      exact .down rfl (by linarith) fun _ => Nat.even_iff.mpr heven
    · rw [hodd]
      exact .up rfl (by linarith) fun _ => Nat.even_add_one.mpr (Nat.not_even_iff.mpr hodd)

/-- With no value between the neighbours, the one that is taken is closest of all. -/
theorem Chosen.closest {t u : ℚ} (h : Chosen t a r) (hle : a ≤ t) (hlt : t < a + 1)
    (hu : u ≤ a ∨ (a : ℚ) + 1 ≤ u) :
    |t - r| ≤ |t - u| ∧ (u ≠ r → |t - u| = |t - r| → Even r) := by
  cases h with
  | down hr hhalf heven =>
    have hr' : (r : ℚ) = a := congrArg Nat.cast hr
    rw [hr', abs_of_nonneg (sub_nonneg.mpr hle)]
    rcases hu with hu | hu
    · rw [abs_of_nonneg (by linarith)]
      exact ⟨by linarith, fun hne heq => absurd (by linarith) hne⟩
    · rw [abs_of_nonpos (by linarith)]
      exact ⟨by linarith, fun _ heq => heven (by linarith)⟩
  | up hr hhalf heven =>
    have hr' : (r : ℚ) = a + 1 := by rw [hr, Nat.cast_add, Nat.cast_one]
    rw [hr', abs_of_nonpos (by linarith)]
    rcases hu with hu | hu
    · rw [abs_of_nonneg (by linarith)]
      exact ⟨by linarith, fun _ heq => heven (by linarith)⟩
    · rw [abs_of_nonpos (by linarith)]
      exact ⟨by linarith, fun hne heq => absurd (by linarith) hne⟩

theorem two_zpow_eq (k : ℤ) : (2 : ℚ) ^ k = 2 ^ k.toNat / 2 ^ (-k).toNat := by
  rw [← zpow_natCast, ← zpow_natCast, ← zpow_sub₀ two_ne_zero, Int.toNat_sub_toNat_neg]

theorem two_zpow_le_div_iff (hd : 0 < d) (k : ℤ) :
    (2 : ℚ) ^ k ≤ n / d ↔ d * Nat.pow 2 k.toNat ≤ n * Nat.pow 2 (-k).toNat := by
  have hpos : (0 : ℚ) < d := Nat.cast_pos.mpr hd
  rw [two_zpow_eq, div_le_div_iff₀ (pow_pos two_pos _) hpos, mul_comm]
  exact_mod_cast Iff.rfl

/-- The leading bit tells the power of two below a quotient. -/
theorem leadingBit_spec (hn : 0 < n) (hd : 0 < d) :
    (2 : ℚ) ^ leadingBit n d ≤ n / d ∧ (n : ℚ) / d < 2 ^ (leadingBit n d + 1) := by
  have hpos : (0 : ℚ) < d := Nat.cast_pos.mpr hd
  have hnlow : (2 : ℚ) ^ (n.log2 : ℤ) ≤ n := by
    rw [zpow_natCast]
    exact_mod_cast Nat.log2_self_le hn.ne'
  have hnhigh : (n : ℚ) < 2 ^ ((n.log2 : ℤ) + 1) := by
    rw [← Nat.cast_succ, zpow_natCast]
    exact_mod_cast Nat.lt_log2_self (n := n)
  have hdlow : (2 : ℚ) ^ (d.log2 : ℤ) ≤ d := by
    rw [zpow_natCast]
    exact_mod_cast Nat.log2_self_le hd.ne'
  have hdhigh : (d : ℚ) < 2 ^ ((d.log2 : ℤ) + 1) := by
    rw [← Nat.cast_succ, zpow_natCast]
    exact_mod_cast Nat.lt_log2_self (n := d)
  rw [leadingBit]
  split
  next h =>
    refine ⟨(two_zpow_le_div_iff hd _).mpr h, ?_⟩
    rw [div_lt_iff₀ hpos]
    calc (n : ℚ) < 2 ^ ((n.log2 : ℤ) + 1) := hnhigh
      _ = 2 ^ ((n.log2 : ℤ) - d.log2 + 1) * 2 ^ (d.log2 : ℤ) := by
        rw [← zpow_add₀ two_ne_zero]
        congr 1
        omega
      _ ≤ 2 ^ ((n.log2 : ℤ) - d.log2 + 1) * d :=
        mul_le_mul_of_nonneg_left hdlow (zpow_pos two_pos _).le
  next h =>
    rw [← two_zpow_le_div_iff hd, not_le] at h
    refine ⟨?_, by rwa [sub_add_cancel]⟩
    rw [le_div_iff₀ hpos]
    calc (2 : ℚ) ^ ((n.log2 : ℤ) - d.log2 - 1) * d
        ≤ 2 ^ ((n.log2 : ℤ) - d.log2 - 1) * 2 ^ ((d.log2 : ℤ) + 1) :=
        mul_le_mul_of_nonneg_left hdhigh.le (zpow_pos two_pos _).le
      _ = 2 ^ (n.log2 : ℤ) := by
        rw [← zpow_add₀ two_ne_zero]
        congr 1
        omega
      _ ≤ n := hnlow

theorem div_two_zpow (n d : ℕ) (step : ℤ) :
    ((n * Nat.pow 2 (-step).toNat : ℕ) : ℚ) / (d * Nat.pow 2 step.toNat : ℕ) = n / d / 2 ^ step := by
  rw [two_zpow_eq, div_div_eq_mul_div, div_mul_eq_mul_div, div_div, Nat.cast_mul, Nat.cast_mul,
    Nat.pow_eq, Nat.pow_eq, Nat.cast_pow, Nat.cast_pow, Nat.cast_ofNat]

/-- A positive number between two steps of the grid on which it is rounded, and the one that is
taken. -/
structure Between (q : ℚ) (step : ℤ) (a r : ℕ) : Prop where
  least : -1074 ≤ step
  full : step = -1074 ∨ 4503599627370496 ≤ a
  short : a < 9007199254740992
  le : (a : ℚ) ≤ q / 2 ^ step
  lt : q / 2 ^ step < a + 1
  chosen : Chosen (q / 2 ^ step) a r

theorem Between.range (h : Between q step a r) : a ≤ r ∧ r ≤ a + 1 := by
  cases h.chosen with
  | down hr => omega
  | up hr => omega

theorem Between.onGrid (h : Between q step a r) (hstep : step ≤ 971) :
    OnGrid step a ∧ OnGrid step (a + 1) ∧ OnGrid step r := by
  obtain ⟨hle, hle'⟩ := h.range
  have hleast := h.least
  have hfull := h.full
  have hshort := h.short
  exact ⟨⟨hleast, hstep, hfull, by omega⟩, ⟨hleast, hstep, by omega, by omega⟩,
    ⟨hleast, hstep, by omega, by omega⟩⟩

/-- What is too large is what comes to the pattern of the infinity, or beyond. -/
theorem Between.overflow_le_iff (h : Between q step a r) :
    overflow ≤ q ↔ 9218868437227405312 ≤ (step + 1074).toNat * 4503599627370496 + r := by
  obtain ⟨hle, hle'⟩ := h.range
  have hleast := h.least
  have hfull := h.full
  have hshort := h.short
  have hlow := h.le
  have hhigh := h.lt
  have hpos : (0 : ℚ) < 2 ^ step := zpow_pos two_pos step
  have hunit : (0 : ℚ) < 2 ^ (970 : ℤ) := zpow_pos two_pos _
  rw [overflow]
  rcases lt_trichotomy step 971 with hstep | rfl | hstep
  · -- on a finer grid the number is less than `2 ^ 1023`
    refine iff_of_false (not_le.mpr ?_) (by omega)
    have hquotient : q / 2 ^ step < 2 ^ 53 :=
      hhigh.trans_le (by exact_mod_cast Nat.succ_le_of_lt hshort)
    calc q < 2 ^ 53 * 2 ^ step := (div_lt_iff₀ hpos).mp hquotient
      _ ≤ 2 ^ 53 * 2 ^ (970 : ℤ) :=
        mul_le_mul_of_nonneg_left (zpow_le_zpow_right₀ one_le_two (by omega)) (by norm_num)
      _ ≤ (2 ^ 54 - 1) * 2 ^ (970 : ℤ) := mul_le_mul_of_nonneg_right (by norm_num) hunit.le
  · -- on the coarsest one it takes the greatest significand, which is odd, to be rounded upwards
    have hdouble : (2 : ℚ) ^ (971 : ℤ) = 2 * 2 ^ (970 : ℤ) := by
      rw [← zpow_one_add₀ two_ne_zero]
      rfl
    have hiff : (2 ^ 54 - 1) * 2 ^ (970 : ℤ) ≤ q ↔ (2 ^ 53 - 1 / 2 : ℚ) ≤ q / 2 ^ (971 : ℤ) := by
      rw [le_div_iff₀ hpos, hdouble, ← mul_assoc]
      norm_num
    have hword : 9218868437227405312 ≤ ((971 : ℤ) + 1074).toNat * 4503599627370496 + r ↔
        9007199254740992 ≤ r := by omega
    rw [hiff, hword]
    cases h.chosen with
    | down hr hhalf heven =>
      have ha : (a : ℚ) + 1 ≤ 2 ^ 53 := by exact_mod_cast Nat.succ_le_of_lt hshort
      refine iff_of_false (fun hlarge => ?_) (by omega)
      have htop : (a : ℚ) + 1 = 2 ^ 53 := le_antisymm ha (by linarith)
      have ha' : a + 1 = 2 ^ 53 := by exact_mod_cast htop
      have hreven := heven (le_antisymm hhalf (by linarith))
      rw [hr, Nat.even_iff] at hreven
      omega
    | up hr hhalf heven =>
      constructor
      · intro hlarge
        have ha : ((2 ^ 53 - 1 : ℕ) : ℚ) < a + 1 := by
          refine lt_of_le_of_lt ?_ hhigh
          exact le_trans (by norm_num) hlarge
        have ha' : 2 ^ 53 - 1 < a + 1 := by exact_mod_cast ha
        omega
      · intro hlarge
        have ha : 2 ^ 53 ≤ a + 1 := by omega
        have ha' : (2 : ℚ) ^ 53 ≤ a + 1 := by exact_mod_cast ha
        linarith
  · -- on a coarser one the number is at least `2 ^ 1024`
    refine iff_of_true ?_ (by omega)
    have hquotient : (2 : ℚ) ^ 52 ≤ q / 2 ^ step := by
      have ha : 2 ^ 52 ≤ a := by omega
      exact le_trans (by exact_mod_cast ha) hlow
    calc (2 ^ 54 - 1) * 2 ^ (970 : ℤ)
        ≤ (2 : ℚ) ^ 52 * (2 ^ 2 * 2 ^ (970 : ℤ)) := by
          rw [← mul_assoc]
          exact mul_le_mul_of_nonneg_right (by norm_num) hunit.le
      _ = 2 ^ 52 * 2 ^ (972 : ℤ) := by
          rw [← zpow_natCast 2 2, ← zpow_add₀ two_ne_zero]
          rfl
      _ ≤ 2 ^ 52 * 2 ^ step :=
          mul_le_mul_of_nonneg_left (zpow_le_zpow_right₀ one_le_two (by omega)) (by norm_num)
      _ ≤ q := (le_div_iff₀ hpos).mp hquotient

/-- What is taken is nearest to the number, unless that is too large. -/
theorem Between.nearest (h : Between q step a r) (hq : 0 < q) (hoverflow : q < overflow) :
    Nearest q (Binary64.onGrid step r) := by
  have hword := not_le.mp (mt h.overflow_le_iff.mpr (not_le.mpr hoverflow))
  have hstep : step ≤ 971 := by
    have hfull := h.full
    have hrange := h.range.1
    omega
  obtain ⟨hlow, hhigh, hr⟩ := h.onGrid hstep
  have hpos : (0 : ℚ) < 2 ^ step := zpow_pos two_pos step
  have hscaled : ∀ u : ℚ, |q - u| = |q / 2 ^ step - u / 2 ^ step| * 2 ^ step := by
    intro u
    rw [← sub_div, abs_div, abs_of_pos hpos, div_mul_cancel₀ _ hpos.ne']
  have hvalue : (Binary64.onGrid step r).toRat / 2 ^ step = r := by
    rw [hr.toRat, mul_div_cancel_right₀ _ hpos.ne']
  have hclosest := fun w => h.chosen.closest h.le h.lt (hlow.le_or_le hhigh w)
  refine ⟨?_, ?_, fun w _ => ?_, fun w _ hne htie => ?_⟩
  · rw [isFinite_iff, hr.magnitude]
    exact hword
  · rw [hr.positive]
    exact iff_of_false Bool.false_ne_true hq.not_gt
  · rw [hscaled, hscaled w.toRat, hvalue]
    exact mul_le_mul_of_nonneg_right (hclosest w).1 hpos.le
  · rw [hscaled, hscaled (Binary64.onGrid step r).toRat, hvalue] at htie
    refine hr.even.mpr ((hclosest w).2 (fun heq => hne ?_) (mul_right_cancel₀ hpos.ne' htie))
    rw [hr.toRat, ← heq, div_mul_cancel₀ _ hpos.ne']

/-- A quotient is rounded on the grid of its leading bit. -/
theorem exists_between (hn : 0 < n) (hd : 0 < d) : ∃ step a r,
    Between (n / d) step a r ∧ nearest n d =
      if 9218868437227405312 ≤ (step + 1074).toNat * 4503599627370496 + r then infinity
      else onGrid step r := by
  obtain ⟨hlow, hhigh⟩ := leadingBit_spec hn hd
  let step := max (leadingBit n d - 52) (-1074)
  have hpos : (0 : ℚ) < 2 ^ step := zpow_pos two_pos step
  -- on the grid the quotient has 53 bits before the point, or less on the least one
  have hshort : (n : ℚ) / d / 2 ^ step < 2 ^ 53 := by
    rw [div_lt_iff₀ hpos, ← zpow_natCast, ← zpow_add₀ two_ne_zero]
    exact hhigh.trans_le (zpow_le_zpow_right₀ one_le_two (by push_cast; omega))
  have hfull : step = -1074 ∨ (2 : ℚ) ^ 52 ≤ n / d / 2 ^ step := by
    refine or_iff_not_imp_left.mpr fun hstep => ?_
    rw [le_div_iff₀ hpos, ← zpow_natCast, ← zpow_add₀ two_ne_zero]
    exact (zpow_le_zpow_right₀ one_le_two (by push_cast; omega)).trans hlow
  have hdivisor : 0 < d * Nat.pow 2 step.toNat := Nat.mul_pos hd (Nat.two_pow_pos _)
  have hchosen := chosen_nearestQuotient (n * Nat.pow 2 (-step).toNat) hdivisor
  have hfloor := Nat.floor_div_eq_div (K := ℚ) (n * Nat.pow 2 (-step).toNat)
    (d * Nat.pow 2 step.toNat)
  rw [div_two_zpow] at hchosen hfloor
  rw [← hfloor] at hchosen
  have hnonneg : (0 : ℚ) ≤ n / d / 2 ^ step :=
    div_nonneg (div_nonneg (Nat.cast_nonneg n) (Nat.cast_nonneg d)) hpos.le
  refine ⟨step, _, _, ⟨by omega, hfull.imp_right fun h => ?_, ?_, Nat.floor_le hnonneg,
    Nat.lt_floor_add_one _, hchosen⟩, if_neg hn.ne'⟩
  · exact Nat.le_floor (by exact_mod_cast h)
  · exact (Nat.floor_lt hnonneg).mpr (by exact_mod_cast hshort)

/-- **Rounding of quotients.** -/
theorem rounds_nearest (hn : 0 < n) (hd : 0 < d) : Rounds (n / d) (nearest n d) := by
  have hpos : (0 : ℚ) < n / d := div_pos (Nat.cast_pos.mpr hn) (Nat.cast_pos.mpr hd)
  obtain ⟨step, a, r, hbetween, hnearest⟩ := exists_between hn hd
  rw [hnearest]
  split
  next hword => exact .tooLarge (hbetween.overflow_le_iff.mpr hword) rfl
  next hword =>
    have hoverflow : (n : ℚ) / d < overflow := not_le.mp (mt hbetween.overflow_le_iff.mp hword)
    exact .nearest (by rwa [abs_of_pos hpos]) (hbetween.nearest hpos hoverflow)

/-! ### One pattern for each number -/

theorem Nearest.neg (h : Nearest q z) (hq : q ≠ 0) : Nearest (-q) z.neg := by
  have hdistance : ∀ w : Binary64, |-q - w.toRat| = |q - w.neg.toRat| := by
    intro w
    rw [toRat_neg, sub_neg_eq_add, ← abs_neg, neg_sub', neg_neg, sub_neg_eq_add]
  refine ⟨by rw [isFinite_neg, h.finite], ?_, fun w hw => ?_, fun w hw hne htie => ?_⟩
  · rw [isNegative_neg, Bool.not_eq_true', Bool.eq_false_iff, ne_eq, h.sign, neg_lt_zero, not_lt]
    exact hq.symm.le_iff_lt
  · rw [hdistance, hdistance, neg_involutive]
    exact h.closest w.neg (by rw [isFinite_neg, hw])
  · rw [even_significand, magnitude_neg, ← even_significand]
    rw [hdistance, hdistance, neg_involutive] at htie
    refine h.even w.neg (by rw [isFinite_neg, hw]) (fun heq => hne ?_) htie
    rw [toRat_neg, ← heq, toRat_neg, neg_neg]

/-- Two patterns that are equally near have a third one between them, as both are even. -/
theorem Nearest.not_magnitude_lt (hy : Nearest q y) (hz : Nearest q z) (hq : 0 ≤ q) :
    ¬ y.magnitude < z.magnitude := by
  intro hlt
  have hypos : y.isNegative = false := Bool.eq_false_iff.mpr (mt hy.sign.mp hq.not_gt)
  have hzpos : z.isNegative = false := Bool.eq_false_iff.mpr (mt hz.sign.mp hq.not_gt)
  have hvalue := toRat_lt_of_magnitude_lt hypos hzpos hlt
  have htie : |q - y.toRat| = |q - z.toRat| :=
    le_antisymm (hy.closest z hz.finite) (hz.closest y hy.finite)
  have hyeven := even_significand.mp (hy.even z hz.finite hvalue.ne' htie.symm)
  have hzeven := even_significand.mp (hz.even y hy.finite hvalue.ne htie)
  rw [Nat.even_iff] at hyeven hzeven
  have hmagnitude := magnitude_positive (m := y.magnitude + 1) (by have := z.magnitude_lt; omega)
  have hpositive := isNegative_positive (m := y.magnitude + 1) (by have := z.magnitude_lt; omega)
  have hfinite := isFinite_iff.mp hz.finite
  generalize positive (y.magnitude + 1) = w at hmagnitude hpositive
  have hlow : y.toRat < w.toRat := toRat_lt_of_magnitude_lt hypos hpositive (by omega)
  have hhigh : w.toRat < z.toRat := toRat_lt_of_magnitude_lt hpositive hzpos (by omega)
  have hmiddle : q - y.toRat = z.toRat - q := by
    rcases abs_eq_abs.mp htie with h | h
    · linarith
    · linarith
  refine (hy.closest w (isFinite_iff.mpr (by omega))).not_gt ?_
  rw [abs_of_nonneg (by linarith : 0 ≤ q - y.toRat), abs_lt]
  exact ⟨by linarith, by linarith⟩

theorem Nearest.unique (hy : Nearest q y) (hz : Nearest q z) : y = z := by
  have hsign : y.isNegative = z.isNegative := by rw [Bool.eq_iff_iff, hy.sign, hz.sign]
  refine eq_iff.mpr ⟨hsign, ?_⟩
  rcases le_or_gt 0 q with hq | hq
  · exact le_antisymm (not_lt.mp (hz.not_magnitude_lt hy hq)) (not_lt.mp (hy.not_magnitude_lt hz hq))
  · have hq' : 0 ≤ -q := by linarith
    rw [← magnitude_neg y, ← magnitude_neg z]
    exact le_antisymm (not_lt.mp ((hz.neg hq.ne).not_magnitude_lt (hy.neg hq.ne) hq'))
      (not_lt.mp ((hy.neg hq.ne).not_magnitude_lt (hz.neg hq.ne) hq'))

theorem overflow_pos : 0 < overflow := by
  rw [overflow]
  exact mul_pos (by norm_num) (zpow_pos two_pos _)

theorem Rounds.unique (hy : Rounds q y) (hz : Rounds q z) : y = z := by
  have hpos := overflow_pos
  cases hy with
  | nearest hq hy =>
    obtain ⟨hlow, hhigh⟩ := abs_lt.mp hq
    cases hz with
    | nearest hq' hz => exact hy.unique hz
    | tooLarge hq' => exact absurd hhigh hq'.not_gt
    | tooSmall hq' => exact absurd hlow hq'.not_gt
  | tooLarge hq hy =>
    cases hz with
    | nearest hq' => exact absurd (abs_lt.mp hq').2 hq.not_gt
    | tooLarge hq' hz => exact hy.trans hz.symm
    | tooSmall hq' => linarith
  | tooSmall hq hy =>
    cases hz with
    | nearest hq' => exact absurd (abs_lt.mp hq').1 hq.not_gt
    | tooLarge hq' => linarith
    | tooSmall hq' hz => exact hy.trans hz.symm

theorem Rounds.neg (h : Rounds q z) (hq : q ≠ 0) : Rounds (-q) z.neg := by
  cases h with
  | nearest hlt h => exact .nearest (by rwa [abs_neg]) (h.neg hq)
  | tooLarge hle hz => exact .tooSmall (neg_le_neg hle) (by rw [hz]; decide)
  | tooSmall hle hz => exact .tooLarge (by linarith) (by rw [hz]; decide)

/-! ### Differences -/

theorem infinite_of_not_finite (hnan : x.isNaN = false) (hfinite : ¬ x.isFinite = true) :
    x = infinity ∨ x = negativeInfinity := by
  have hinfinity : infinity.isNegative = false ∧ infinity.magnitude = 9218868437227405312 := by
    decide
  have hnegative : negativeInfinity.isNegative = true ∧
      negativeInfinity.magnitude = 9218868437227405312 := by decide
  rw [isFinite_iff] at hfinite
  have hnot : ¬ 9218868437227405312 < x.magnitude := by simp [← isNaN_iff, hnan]
  have hmagnitude : x.magnitude = 9218868437227405312 := by omega
  rw [eq_iff, eq_iff, hinfinity.1, hinfinity.2, hnegative.1, hnegative.2]
  cases x.isNegative <;> simp [hmagnitude]

theorem toRat_eq_iff : x.toRat = y.toRat ↔ x.units - y.units = 0 := by
  rw [toRat_eq_units, toRat_eq_units, div_left_inj' sizeOfOne_cast_pos.ne', Int.cast_inj,
    Int.sub_eq_zero]

/-- Quotients with a sign are rounded without it. -/
theorem rounds_signed {i : ℤ} (hi : i ≠ 0) (hd : 0 < d) :
    Rounds (i / d) (if i < 0 then (nearest i.natAbs d).neg else nearest i.natAbs d) := by
  have hpos : (0 : ℚ) < d := Nat.cast_pos.mpr hd
  have hrounds := rounds_nearest (Int.natAbs_pos.mpr hi) hd
  rw [← Int.cast_natCast i.natAbs, Int.natCast_natAbs, Int.cast_abs] at hrounds
  split
  next hneg =>
    have hneg' : (i : ℚ) < 0 := Int.cast_lt_zero.mpr hneg
    rw [abs_of_neg hneg'] at hrounds
    have hback := hrounds.neg (div_ne_zero (by linarith) hpos.ne')
    rwa [neg_div, neg_neg] at hback
  next hneg => rwa [abs_of_nonneg (Int.cast_nonneg (not_lt.mp hneg))] at hrounds

/-- The difference of finite patterns is a quotient of integers. -/
theorem rounds_difference (hne : x.toRat ≠ y.toRat) : Rounds (x.toRat - y.toRat)
    (if x.units - y.units < 0 then (nearest (x.units - y.units).natAbs (Nat.pow 2 1074)).neg
    else nearest (x.units - y.units).natAbs (Nat.pow 2 1074)) := by
  have hone : ∀ k, k = 1074 → Nat.pow 2 k = sizeOfOne := fun k hk => by rw [sizeOfOne, ← hk]; rfl
  rw [toRat_eq_units, toRat_eq_units, ← sub_div, ← Int.cast_sub, hone 1074 rfl]
  exact rounds_signed (mt toRat_eq_iff.mpr hne) sizeOfOne_pos

theorem sub_of_finite (hx : x.isFinite = true) (hy : y.isFinite = true) : x.sub y =
    if x.units - y.units = 0 then if x = negativeZero ∧ y = zero then negativeZero else zero
    else if x.units - y.units < 0 then
      (nearest (x.units - y.units).natAbs (Nat.pow 2 1074)).neg
    else nearest (x.units - y.units).natAbs (Nat.pow 2 1074) := by
  rw [sub, if_neg (by simp [isNaN_of_isFinite hx, isNaN_of_isFinite hy]),
    if_neg (by simp [hx]), if_neg (by simp [hy])]

theorem difference_sub (x y : Binary64) : Difference x y (x.sub y) := by
  rw [sub]
  split
  next hnan => exact .notNumbers hnan rfl
  next hnan =>
    obtain ⟨hx, hy⟩ := not_or.mp hnan
    rw [Bool.not_eq_true] at hx hy
    split
    next hfinite =>
      have hinfinite := infinite_of_not_finite hx hfinite
      split
      next heq => exact .infinities hinfinite heq.symm rfl
      next hne => exact .fromInfinity hinfinite hy (Ne.symm hne) rfl
    next hfinite =>
      rw [not_not] at hfinite
      split
      next hfinite' =>
        rcases infinite_of_not_finite hy hfinite' with rfl | rfl
        · exact .ofInfinity hfinite rfl (by decide)
        · exact .ofNegativeInfinity hfinite rfl (by decide)
      next hfinite' =>
        rw [not_not] at hfinite'
        dsimp only
        split
        next hzero =>
          split
          next h => exact .zeros h.1 h.2 rfl
          next h => exact .nothing hfinite hfinite' (toRat_eq_iff.mpr hzero) h rfl
        next hzero =>
          have hne := mt toRat_eq_iff.mp hzero
          exact .rounded hfinite hfinite' hne (rounds_difference hne)

theorem Difference.eq_sub (h : Difference x y z) : z = x.sub y := by
  cases h with
  | notNumbers h hz => rw [sub, if_pos h, hz]
  | infinities hx hy hz =>
    subst hy hz
    rcases hx with rfl | rfl <;> rfl
  | fromInfinity hx hy hne hz =>
    have hfinite : x.isNaN = false ∧ x.isFinite = false := by rcases hx with rfl | rfl <;> decide
    rw [sub, if_neg (by simp [hfinite, hy]), if_pos (by simp [hfinite]), if_neg (Ne.symm hne), hz]
  | ofInfinity hx hy hz =>
    subst hy hz
    have hy : infinity.isNaN = false ∧ infinity.isFinite = false := by decide
    rw [sub, if_neg (by simp [isNaN_of_isFinite hx, hy]), if_neg (by simp [hx]),
      if_pos (by simp [hy])]
    decide
  | ofNegativeInfinity hx hy hz =>
    subst hy hz
    have hy : negativeInfinity.isNaN = false ∧ negativeInfinity.isFinite = false := by decide
    rw [sub, if_neg (by simp [isNaN_of_isFinite hx, hy]), if_neg (by simp [hx]),
      if_pos (by simp [hy])]
    decide
  | zeros hx hy hz =>
    subst hx hy hz
    decide
  | nothing hx hy heq hne hz =>
    rw [sub_of_finite hx hy, if_pos (toRat_eq_iff.mp heq), if_neg hne, hz]
  | rounded hx hy hne h =>
    rw [sub_of_finite hx hy, if_neg (mt toRat_eq_iff.mpr hne)]
    exact h.unique (rounds_difference hne)

/-- **Differences.**  Subtraction computes the difference of IEEE 754. -/
theorem difference_iff : Difference x y z ↔ z = x.sub y :=
  ⟨Difference.eq_sub, fun h => h ▸ difference_sub x y⟩

instance : Decidable (Difference x y z) := decidable_of_iff _ difference_iff.symm

example : Difference (ofNat 5) (ofNat 2) (ofNat 3) := by decide +kernel
example : ¬ Difference (ofNat 5) (ofNat 2) (ofNat 5) := by decide +kernel

end ScriptHost.Binary64
