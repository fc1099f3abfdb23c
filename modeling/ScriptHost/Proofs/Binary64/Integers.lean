/-
Doubles that are integers.

`Denotes x q` says that a pattern is a number whose value is `q`: sign, significand and power of two
are put together as a rational number, so the two zeros denote the same, and the infinities and NaNs
denote nothing.  For integers this is what the functions on patterns go by:

* `denotes_intCast_iff` — `integer?` finds the integer that a pattern denotes;
* `lt_iff_of_integer?`, `truncate_of_integer?` — comparison and truncation are those of integers;
* `denotes_ofNat` — up to 53 bits, a natural number is turned into a double that denotes it.

Design notes: as for the total order, values are counted in units of the least positive number, so
that an integer `i` stands for `i * sizeOfOne` of these.
-/
import ScriptHost.Proofs.Binary64.TotalOrder
import Mathlib.Algebra.Order.Field.Basic
import Mathlib.Data.Rat.Cast.Order

namespace ScriptHost.Binary64

variable {x y : Binary64} {n : Nat} {i j : ℤ}

/-! ### What a pattern denotes -/

/-- Sign, significand and power of two, put together. -/
def toRat (x : Binary64) : ℚ :=
  (if x.isNegative then -1 else 1) * (x.significand : ℚ) * 2 ^ x.power

/-- The pattern is a number, and this is its value. -/
def Denotes (x : Binary64) (q : ℚ) : Prop := x.isFinite = true ∧ x.toRat = q

theorem Denotes.unique {p q : ℚ} (hp : x.Denotes p) (hq : x.Denotes q) : p = q :=
  hp.2.symm.trans hq.2

/-- The size of one. -/
def sizeOfOne : Nat := 2 ^ 1074

theorem sizeOfOne_pos : 0 < sizeOfOne := by
  rw [sizeOfOne]
  exact pow_pos Nat.two_pos _

theorem neg_1074_le_power (x : Binary64) : -1074 ≤ x.power := by
  rw [power]
  omega

theorem toRat_mul (x : Binary64) :
    x.toRat * sizeOfOne = ((if x.isNegative then -(x.size : ℤ) else x.size : ℤ) : ℚ) := by
  have hle := x.neg_1074_le_power
  have hpower : ((x.power + 1074).toNat : ℤ) = x.power + (1074 : ℕ) :=
    Int.toNat_of_nonneg (by omega)
  have hsize : (x.size : ℚ) = x.significand * 2 ^ x.power * sizeOfOne := by
    rw [size, sizeOfOne, Nat.cast_mul, Nat.cast_pow, Nat.cast_pow, Nat.cast_ofNat, ← zpow_natCast,
      hpower, zpow_add₀ two_ne_zero, zpow_natCast, mul_assoc]
  rw [toRat]
  split
  · rw [Int.cast_neg, Int.cast_natCast, hsize, neg_one_mul, neg_mul, neg_mul]
  · rw [Int.cast_natCast, hsize, one_mul]

/-! ### Whole numbers -/

/-- The pattern is a whole number of this absolute value. -/
theorem wholeMagnitude?_eq_some_iff :
    x.wholeMagnitude? = some n ↔ x.isFinite = true ∧ x.size = n * sizeOfOne := by
  have hle := x.neg_1074_le_power
  rw [wholeMagnitude?]
  by_cases hfinite : x.isFinite = true
  · rw [if_neg (not_not.mpr hfinite), and_iff_right hfinite, size]
    by_cases hpower : 0 ≤ x.power
    · have hunits : 2 ^ (x.power + 1074).toNat = 2 ^ x.power.toNat * sizeOfOne := by
        rw [sizeOfOne, ← Nat.pow_add]
        congr 1
        omega
      rw [if_pos hpower, Option.some_inj, hunits, ← Nat.mul_assoc]
      exact (Nat.mul_left_inj sizeOfOne_pos.ne').symm
    · -- the significand has to take up the negative power
      have hunits : sizeOfOne = Nat.pow 2 (-x.power).toNat * 2 ^ (x.power + 1074).toNat := by
        rw [sizeOfOne, Nat.pow_eq, ← Nat.pow_add]
        congr 1
        omega
      have hpos : 0 < Nat.pow 2 (-x.power).toNat := Nat.two_pow_pos _
      rw [if_neg hpower, hunits, ← Nat.mul_assoc, Nat.mul_left_inj (Nat.two_pow_pos _).ne']
      constructor
      · intro h
        split at h
        next hdvd =>
          rw [← Option.some.inj h]
          exact (Nat.div_mul_cancel (Nat.dvd_of_mod_eq_zero hdvd)).symm
        next => exact absurd h (by simp)
      · intro h
        rw [h, if_pos (Nat.mul_mod_left _ _)]
        exact congrArg some (Nat.mul_div_cancel n hpos)
  · rw [if_pos hfinite]
    exact iff_of_false (by simp) fun h => hfinite h.1

theorem isNaN_of_isFinite (h : x.isFinite = true) : x.isNaN = false := by
  rw [isFinite_iff] at h
  rw [Bool.eq_false_iff, ne_eq, isNaN_iff]
  omega

theorem integer?_eq_some_iff :
    x.integer? = some i ↔
      ∃ n, x.wholeMagnitude? = some n ∧ (if x.isNegative then -(n : ℤ) else n) = i := by
  rw [integer?]
  cases x.wholeMagnitude? <;> simp

theorem isFinite_of_integer? (hx : x.integer? = some i) : x.isFinite = true := by
  obtain ⟨n, hn, -⟩ := integer?_eq_some_iff.mp hx
  exact (wholeMagnitude?_eq_some_iff.mp hn).1

theorem isWhole_of_integer? (hx : x.integer? = some i) : x.isWhole = true := by
  obtain ⟨n, hn, -⟩ := integer?_eq_some_iff.mp hx
  rw [isWhole, hn]
  rfl

theorem integer?_eq_none_iff : x.integer? = none ↔ x.isWhole = false := by
  rw [integer?, isWhole]
  cases x.wholeMagnitude? <;> simp

/-- The integer that is found is the one that the pattern denotes. -/
theorem denotes_intCast_iff : x.Denotes i ↔ x.integer? = some i := by
  have hone : (sizeOfOne : ℚ) ≠ 0 := Nat.cast_ne_zero.mpr sizeOfOne_pos.ne'
  have hunits : x.Denotes i ↔ x.isFinite = true ∧
      (if x.isNegative then -(x.size : ℤ) else x.size) = i * sizeOfOne := by
    rw [Denotes, ← mul_left_inj' hone, toRat_mul]
    exact_mod_cast Iff.rfl
  have hpos : (0 : ℤ) < sizeOfOne := Int.natCast_pos.mpr sizeOfOne_pos
  rw [hunits, integer?_eq_some_iff]
  simp only [wholeMagnitude?_eq_some_iff, and_assoc, exists_and_left]
  refine and_congr_right fun _ => ?_
  constructor
  · intro h
    -- the magnitude is that of the integer, and the sign is right as there is no negative size
    have hsize : x.size = i.natAbs * sizeOfOne := by
      rw [← Int.natAbs_natCast sizeOfOne, ← Int.natAbs_mul, ← h]
      split
      · rw [Int.natAbs_neg, Int.natAbs_natCast]
      · rw [Int.natAbs_natCast]
    refine ⟨i.natAbs, hsize, ?_⟩
    split at h
    next hneg =>
      have hle : i ≤ 0 := nonpos_of_mul_nonpos_left (by omega) hpos
      rw [if_pos hneg]
      omega
    next hneg =>
      have hle : 0 ≤ i := nonneg_of_mul_nonneg_left (by omega) hpos
      rw [if_neg hneg]
      omega
  · rintro ⟨n, hsize, rfl⟩
    rw [hsize]
    split
    · rw [Int.natCast_mul, Int.neg_mul]
    · rw [Int.natCast_mul]

/-- Integers compare as the patterns do that stand for them. -/
theorem lt_iff_of_integer? (hx : x.integer? = some i) (hy : y.integer? = some j) :
    x.lt y = true ↔ i < j := by
  obtain ⟨n, hn, rfl⟩ := integer?_eq_some_iff.mp hx
  obtain ⟨m, hm, rfl⟩ := integer?_eq_some_iff.mp hy
  obtain ⟨hxfinite, hxsize⟩ := wholeMagnitude?_eq_some_iff.mp hn
  obtain ⟨hyfinite, hysize⟩ := wholeMagnitude?_eq_some_iff.mp hm
  have hxy : n < m ↔ x.magnitude < y.magnitude := by
    rw [← size_lt_iff, hxsize, hysize, Nat.mul_lt_mul_right sizeOfOne_pos]
  have hyx : m < n ↔ y.magnitude < x.magnitude := by
    rw [← size_lt_iff, hxsize, hysize, Nat.mul_lt_mul_right sizeOfOne_pos]
  have hx₀ : n = 0 ↔ x.magnitude = 0 := by
    rw [← size_eq_zero_iff, hxsize, Nat.mul_eq_zero, or_iff_left sizeOfOne_pos.ne']
  have hy₀ : m = 0 ↔ y.magnitude = 0 := by
    rw [← size_eq_zero_iff, hysize, Nat.mul_eq_zero, or_iff_left sizeOfOne_pos.ne']
  rw [lt, decide_eq_true_eq, isNaN_of_isFinite hxfinite, isNaN_of_isFinite hyfinite, signed, signed]
  simp only [Bool.false_eq_true, not_false_eq_true, true_and]
  split <;> split <;> omega

/-- An integer is cut only by the bounds. -/
theorem truncate_of_integer? (hx : x.integer? = some i) (least greatest : ℤ) :
    x.truncate least greatest = max least (min greatest i) := by
  obtain ⟨n, hn, rfl⟩ := integer?_eq_some_iff.mp hx
  have hfinite := isFinite_of_integer? hx
  have hsize : (if 0 ≤ x.power then x.significand * Nat.pow 2 x.power.toNat
      else x.significand / Nat.pow 2 (-x.power).toNat) = n := by
    rw [wholeMagnitude?, if_neg (not_not.mpr hfinite)] at hn
    split at hn
    next hpower => rw [if_pos hpower, Option.some.inj hn]
    next hpower =>
      split at hn
      next => rw [if_neg hpower, Option.some.inj hn]
      next => exact absurd hn (by simp)
  rw [truncate, isNaN_of_isFinite hfinite]
  dsimp only
  rw [if_neg Bool.false_ne_true, hsize]

/-! ### Natural numbers as doubles -/

/-- The fields of a pattern that is put together of an exponent and a fraction. -/
theorem integer?_of_bits {e f : Nat} (hx : x.bits.toNat = e * 4503599627370496 + f)
    (hf : f < 4503599627370496) (he : 0 < e) (he' : e < 2047)
    (hn : (f + 4503599627370496) * 2 ^ (e - 1) = n * sizeOfOne) : x.integer? = some (n : ℤ) := by
  have hmagnitude : x.magnitude = e * 4503599627370496 + f := by
    show x.bits.toNat % 9223372036854775808 = _
    omega
  have hexponent : x.biasedExponent = e := by
    rw [biasedExponent_eq]
    omega
  have hfraction : x.fraction = f := by
    rw [fraction_eq]
    omega
  have hpositive : ¬ x.isNegative = true := by
    rw [isNegative_iff]
    omega
  refine integer?_eq_some_iff.mpr ⟨n, wholeMagnitude?_eq_some_iff.mpr ⟨?_, ?_⟩, if_neg hpositive⟩
  · rw [isFinite_iff]
    omega
  · rw [size_eq, hexponent, hfraction, if_neg (Nat.pos_iff_ne_zero.mp he), hn]

theorem integer?_zero : zero.integer? = some 0 := by
  have hsize : zero.size = 0 := size_eq_zero_iff.mpr rfl
  exact integer?_eq_some_iff.mpr
    ⟨0, wholeMagnitude?_eq_some_iff.mpr ⟨rfl, hsize.trans (Nat.zero_mul _).symm⟩, rfl⟩

/-- Natural numbers of at most 53 bits are turned into doubles without loss. -/
theorem denotes_ofNat (h : n < 2 ^ 53) : (ofNat n).Denotes n := by
  refine denotes_intCast_iff.mpr ?_
  by_cases hn : n = 0
  · rw [hn]
    exact integer?_zero
  · have hlow : 2 ^ n.log2 ≤ n := Nat.log2_self_le hn
    have hhigh : n < 2 ^ (n.log2 + 1) := Nat.lt_log2_self
    have htop : n.log2 ≤ 52 := Nat.lt_succ_iff.mp ((Nat.log2_lt hn).mpr h)
    -- the leading bit is shifted to the place of the implicit one
    have hleast : 4503599627370496 ≤ n * 2 ^ (52 - n.log2) := by
      calc 4503599627370496 = 2 ^ n.log2 * 2 ^ (52 - n.log2) := by
            rw [← Nat.pow_add, Nat.add_sub_cancel' htop]
        _ ≤ n * 2 ^ (52 - n.log2) := Nat.mul_le_mul_right _ hlow
    have hgreatest : n * 2 ^ (52 - n.log2) < 9007199254740992 := by
      calc n * 2 ^ (52 - n.log2) < 2 ^ (n.log2 + 1) * 2 ^ (52 - n.log2) :=
            Nat.mul_lt_mul_of_pos_right hhigh (Nat.two_pow_pos _)
        _ = 2 ^ 53 := by
            rw [← Nat.pow_add]
            congr 1
            omega
    have hbits : (ofNat n).bits.toNat =
        (n.log2 + 1023) * 4503599627370496 + (n * 2 ^ (52 - n.log2) - 4503599627370496) := by
      have hword : (n.log2 + 1023) * 4503599627370496 +
          (n * 2 ^ (52 - n.log2) - 4503599627370496) < 9218868437227405312 := by omega
      have hpattern : ofNat n = ⟨UInt64.ofNat ((n.log2 + 1023) * 4503599627370496 +
          (n * 2 ^ (52 - n.log2) - 4503599627370496))⟩ := by
        rw [ofNat, if_neg hn]
        dsimp only
        rw [if_pos htop]
        exact if_neg (Nat.not_le.mpr hword)
      rw [hpattern]
      exact UInt64.toNat_ofNat_of_lt (Nat.lt_trans hword (by decide))
    have hvalue : (n * 2 ^ (52 - n.log2) - 4503599627370496 + 4503599627370496) *
        2 ^ (n.log2 + 1023 - 1) = n * sizeOfOne := by
      have hexponent : 52 - n.log2 + (n.log2 + 1023 - 1) = 1074 := by omega
      rw [sizeOfOne, Nat.sub_add_cancel hleast, Nat.mul_assoc, ← pow_add, hexponent]
    exact integer?_of_bits hbits (by omega) (by omega) (by omega) hvalue

end ScriptHost.Binary64
