/-
The total order of doubles.

`TotalOrder` is the relation `totalOrder` of IEEE 754, clause by clause: numbers go by their
values, a negative zero before the positive one; NaNs stand outside them on the side of their
signs, and among themselves they go by kind and payload.  `totalLe` compares one integer for each
pattern instead, and comes to the same:

* `size_lt_iff` — a larger magnitude of the pattern is a larger absolute value;
* `totalLe_iff` — `totalLe` decides the total order;
* `totalLe_trans`, `totalLe_total`, `totalLe_antisymm` — which is a linear order of patterns.

Design notes: the value of a finite pattern is a multiple of the least positive number, `2 ^ (-1074)`,
and `size` counts these, so all comparisons are comparisons of integers.
-/
import ScriptHost.Binary64.Basic
import Mathlib.Algebra.Order.Field.Rat
import Mathlib.Data.Int.ConditionallyCompleteOrder

namespace ScriptHost.Binary64

variable {x y z : Binary64}

/-! ### Fields -/

theorem magnitude_lt (x : Binary64) : x.magnitude < 9223372036854775808 :=
  Nat.mod_lt _ (by decide)

theorem isNegative_iff : x.isNegative = true ↔ 9223372036854775808 ≤ x.bits.toNat := by
  rw [isNegative, decide_eq_true_eq]

/-- A pattern is its sign and its magnitude. -/
theorem eq_iff : x = y ↔ x.isNegative = y.isNegative ∧ x.magnitude = y.magnitude := by
  refine ⟨fun h => h ▸ ⟨rfl, rfl⟩, fun ⟨hsign, hmagnitude⟩ => ?_⟩
  have hx := x.bits.toNat_lt
  have hy := y.bits.toNat_lt
  have hsigns : 9223372036854775808 ≤ x.bits.toNat ↔ 9223372036854775808 ≤ y.bits.toNat := by
    rw [← isNegative_iff, ← isNegative_iff, hsign]
  have hrests : x.bits.toNat % 9223372036854775808 = y.bits.toNat % 9223372036854775808 := hmagnitude
  have hbits : x.bits.toNat = y.bits.toNat := by omega
  cases x
  cases y
  exact congrArg mk (UInt64.toNat_inj.mp hbits)

theorem biasedExponent_eq (x : Binary64) : x.biasedExponent = x.magnitude / 4503599627370496 := rfl

theorem fraction_eq (x : Binary64) : x.fraction = x.magnitude % 4503599627370496 := rfl

/-- The magnitude of the infinities is `2047 * 2 ^ 52`; finite patterns are below it. -/
theorem isFinite_iff : x.isFinite = true ↔ x.magnitude < 9218868437227405312 := by
  have hlt := x.magnitude_lt
  rw [isFinite, decide_eq_true_eq, biasedExponent_eq]
  omega

theorem isNaN_iff : x.isNaN = true ↔ 9218868437227405312 < x.magnitude := by
  have hlt := x.magnitude_lt
  rw [isNaN, decide_eq_true_eq, biasedExponent_eq, fraction_eq]
  omega

/-! ### Values -/

/-- The absolute value of a finite pattern, in units of the least positive number. -/
def size (x : Binary64) : Nat := x.significand * 2 ^ (x.power + 1074).toNat

/-- The value of a number, in units of the least positive one; the infinities are the bounds. -/
def value (x : Binary64) : WithBot (WithTop ℤ) :=
  if x.isFinite then (((if x.isNegative then -(x.size : ℤ) else x.size : ℤ) : WithTop ℤ) :)
  else if x.isNegative then ⊥ else ⊤

theorem size_eq (x : Binary64) :
    x.size = (if x.biasedExponent = 0 then x.fraction else x.fraction + 4503599627370496) *
      2 ^ (x.biasedExponent - 1) := by
  have hpower : (x.power + 1074).toNat = x.biasedExponent - 1 := by
    rw [power]
    omega
  rw [size, hpower, significand]

/-- Below the next exponent. -/
theorem size_lt (x : Binary64) : x.size < 4503599627370496 * 2 ^ x.biasedExponent := by
  have hfraction : x.fraction < 4503599627370496 := Nat.mod_lt _ (by decide)
  rw [size_eq]
  cases x.biasedExponent with
  | zero => simpa using hfraction
  | succ e =>
    rw [if_neg (Nat.succ_ne_zero e), Nat.add_sub_cancel, Nat.pow_succ', ← Nat.mul_assoc]
    exact Nat.mul_lt_mul_of_pos_right (by omega) (Nat.two_pow_pos e)

theorem le_size (h : x.biasedExponent ≠ 0) :
    4503599627370496 * 2 ^ (x.biasedExponent - 1) ≤ x.size := by
  rw [size_eq, if_neg h]
  exact Nat.mul_le_mul_right _ (Nat.le_add_left _ _)

theorem size_lt_of_magnitude_lt (h : x.magnitude < y.magnitude) : x.size < y.size := by
  have hx := biasedExponent_eq x
  have hy := biasedExponent_eq y
  rcases Nat.lt_or_ge x.biasedExponent y.biasedExponent with he | he
  · -- the exponents decide
    have hle : x.biasedExponent ≤ y.biasedExponent - 1 := by omega
    calc x.size < 4503599627370496 * 2 ^ x.biasedExponent := x.size_lt
      _ ≤ 4503599627370496 * 2 ^ (y.biasedExponent - 1) :=
        Nat.mul_le_mul_left _ (Nat.pow_le_pow_right Nat.two_pos hle)
      _ ≤ y.size := le_size (by omega)
  · have hsame : x.biasedExponent = y.biasedExponent := by omega
    have hfraction : x.fraction < y.fraction := by
      rw [fraction_eq, fraction_eq]
      omega
    rw [size_eq, size_eq, hsame]
    refine Nat.mul_lt_mul_of_pos_right ?_ (Nat.two_pow_pos _)
    split
    · exact hfraction
    · exact Nat.add_lt_add_right hfraction _

theorem size_lt_iff : x.size < y.size ↔ x.magnitude < y.magnitude := by
  refine ⟨fun h => ?_, size_lt_of_magnitude_lt⟩
  rcases Nat.lt_trichotomy x.magnitude y.magnitude with hlt | heq | hgt
  · exact hlt
  · have hsize : x.size = y.size := by
      rw [size_eq, size_eq, biasedExponent_eq, biasedExponent_eq, fraction_eq, fraction_eq, heq]
    omega
  · exact absurd (size_lt_of_magnitude_lt hgt) (Nat.lt_asymm h)

theorem size_eq_zero_iff : x.size = 0 ↔ x.magnitude = 0 := by
  have hzero : zero.size = 0 := by decide
  have hiff := size_lt_iff (x := zero) (y := x)
  have hmagnitude : zero.magnitude = 0 := rfl
  omega

theorem value_of_finite (h : x.magnitude < 9218868437227405312) :
    x.value = (((if x.isNegative then -(x.size : ℤ) else x.size : ℤ) : WithTop ℤ) :) :=
  if_pos (isFinite_iff.mpr h)

theorem value_of_infinite (h : ¬ x.magnitude < 9218868437227405312) :
    x.value = if x.isNegative then ⊥ else ⊤ := if_neg (mt isFinite_iff.mp h)

/-- The infinities are beyond all finite values. -/
theorem bounds (i : ℤ) :
    ⊥ < (((i : WithTop ℤ)) : WithBot (WithTop ℤ)) ∧ (((i : WithTop ℤ)) : WithBot (WithTop ℤ)) < ⊤ :=
  ⟨WithBot.bot_lt_coe _, WithBot.coe_lt_coe.mpr (WithTop.coe_lt_top i)⟩

/-- Numbers compare as their magnitudes with signs do. -/
theorem value_lt_iff (hx : x.isNaN = false) (hy : y.isNaN = false) :
    x.value < y.value ↔ x.signed < y.signed := by
  have hx' : ¬ 9218868437227405312 < x.magnitude := by simp [← isNaN_iff, hx]
  have hy' : ¬ 9218868437227405312 < y.magnitude := by simp [← isNaN_iff, hy]
  unfold signed
  by_cases hxf : x.magnitude < 9218868437227405312
  · rw [value_of_finite hxf]
    by_cases hyf : y.magnitude < 9218868437227405312
    · -- two finite numbers: their sizes compare as their magnitudes do
      have hxy := size_lt_iff (x := x) (y := y)
      have hyx := size_lt_iff (x := y) (y := x)
      have hx₀ := size_eq_zero_iff (x := x)
      have hy₀ := size_eq_zero_iff (x := y)
      rw [value_of_finite hyf, WithBot.coe_lt_coe, WithTop.coe_lt_coe]
      split <;> split <;> omega
    · rw [value_of_infinite hyf]
      cases y.isNegative with
      | true =>
        simp only [if_true]
        exact iff_of_false not_lt_bot (by split <;> omega)
      | false =>
        simp only [Bool.false_eq_true, if_false]
        exact iff_of_true (bounds _).2 (by split <;> omega)
  · rw [value_of_infinite hxf]
    by_cases hyf : y.magnitude < 9218868437227405312
    · rw [value_of_finite hyf]
      cases x.isNegative with
      | true =>
        simp only [if_true]
        exact iff_of_true (bounds _).1 (by split <;> omega)
      | false =>
        simp only [Bool.false_eq_true, if_false]
        exact iff_of_false not_top_lt (by split <;> omega)
    · rw [value_of_infinite hyf]
      cases x.isNegative <;> cases y.isNegative <;> simp <;> omega

/-! ### The total order -/

/-- A NaN is quiet if the first bit of its fraction is set; otherwise it signals. -/
def isQuiet (x : Binary64) : Bool := x.fraction / 2251799813685248 = 1

/-- The rest of the fraction of a NaN. -/
def payload (x : Binary64) : Nat := x.fraction % 2251799813685248

/-- Among NaNs of positive sign, signaling ones come first, and then lesser payloads. -/
def PayloadLe (x y : Binary64) : Prop :=
  (x.isQuiet = false ∧ y.isQuiet = true) ∨ (x.isQuiet = y.isQuiet ∧ x.payload ≤ y.payload)

/-- The total order of IEEE 754. -/
inductive TotalOrder (x y : Binary64) : Prop
  | less (hx : x.isNaN = false) (hy : y.isNaN = false) (h : x.value < y.value)
  | zeros (hx : x = negativeZero) (hy : y = zero)
  | same (h : x = y)
  | negativeNaN (hx : x.isNaN = true) (hneg : x.isNegative = true) (hy : y.isNaN = false)
  | positiveNaN (hx : x.isNaN = false) (hy : y.isNaN = true) (hpos : y.isNegative = false)
  | signs (hx : x.isNaN = true) (hneg : x.isNegative = true) (hy : y.isNaN = true)
      (hpos : y.isNegative = false)
  | positive (hx : x.isNaN = true) (hposx : x.isNegative = false) (hy : y.isNaN = true)
      (hposy : y.isNegative = false) (h : x.PayloadLe y)
  /-- Among NaNs of negative sign, the order is reversed. -/
  | negative (hx : x.isNaN = true) (hnegx : x.isNegative = true) (hy : y.isNaN = true)
      (hnegy : y.isNegative = true) (h : y.PayloadLe x)

/-- Kind and payload of NaNs are compared by comparing their magnitudes. -/
theorem payloadLe_iff (hx : x.isNaN = true) (hy : y.isNaN = true) :
    x.PayloadLe y ↔ x.magnitude ≤ y.magnitude := by
  have hxm := isNaN_iff.mp hx
  have hym := isNaN_iff.mp hy
  have hxlt := x.magnitude_lt
  have hylt := y.magnitude_lt
  unfold PayloadLe isQuiet payload
  rw [fraction_eq, fraction_eq, decide_eq_false_iff_not, decide_eq_true_eq, decide_eq_decide]
  omega

theorem totalLe_eq_true_iff : x.totalLe y = true ↔ x.orderKey ≤ y.orderKey := decide_eq_true_iff

theorem orderKey_of_negative (h : x.isNegative = true) : x.orderKey = -(x.magnitude : ℤ) - 1 :=
  if_pos h

theorem orderKey_of_positive (h : x.isNegative = false) : x.orderKey = x.magnitude :=
  if_neg (by simp [h])

/-- The keys of numbers lie between those of the infinities. -/
theorem orderKey_of_number (h : x.isNaN = false) :
    -9218868437227405313 ≤ x.orderKey ∧ x.orderKey ≤ 9218868437227405312 := by
  have hle : ¬ 9218868437227405312 < x.magnitude := by simp [← isNaN_iff, h]
  rw [orderKey]
  split <;> omega

/-- Those of NaNs lie outside. -/
theorem orderKey_of_isNaN (h : x.isNaN = true) :
    (x.isNegative = true ∧ x.orderKey < -9218868437227405313) ∨
      (x.isNegative = false ∧ 9218868437227405312 < x.orderKey) := by
  have hlt := isNaN_iff.mp h
  cases hneg : x.isNegative with
  | true =>
    rw [orderKey_of_negative hneg]
    exact Or.inl ⟨rfl, by omega⟩
  | false =>
    rw [orderKey_of_positive hneg]
    exact Or.inr ⟨rfl, by omega⟩

/-- Numbers whose values do not differ are the same, but for the two zeros. -/
theorem orderKey_le_iff_of_numbers (hx : x.isNaN = false) (hy : y.isNaN = false) :
    x.orderKey ≤ y.orderKey ↔ x.value < y.value ∨ (x = negativeZero ∧ y = zero) ∨ x = y := by
  have hzero : zero.isNegative = false ∧ zero.magnitude = 0 := by decide
  have hnegativeZero : negativeZero.isNegative = true ∧ negativeZero.magnitude = 0 := by decide
  rw [value_lt_iff hx hy, eq_iff, eq_iff, eq_iff, hzero.1, hzero.2, hnegativeZero.1,
    hnegativeZero.2, orderKey, orderKey, signed, signed]
  cases x.isNegative <;> cases y.isNegative <;> simp <;> omega

theorem totalOrder_of_orderKey_le (h : x.orderKey ≤ y.orderKey) : TotalOrder x y := by
  cases hx : x.isNaN with
  | false =>
    cases hy : y.isNaN with
    | false =>
      rcases (orderKey_le_iff_of_numbers hx hy).mp h with h | ⟨hx, hy⟩ | h
      · exact .less hx hy h
      · exact .zeros hx hy
      · exact .same h
    | true =>
      have hkey := orderKey_of_number hx
      rcases orderKey_of_isNaN hy with ⟨hneg, hlt⟩ | ⟨hpos, hlt⟩
      · omega
      · exact .positiveNaN hx hy hpos
  | true =>
    rcases orderKey_of_isNaN hx with ⟨hneg, hlt⟩ | ⟨hpos, hlt⟩
    · cases hy : y.isNaN with
      | false => exact .negativeNaN hx hneg hy
      | true =>
        cases hneg' : y.isNegative with
        | false => exact .signs hx hneg hy hneg'
        | true =>
          rw [orderKey_of_negative hneg, orderKey_of_negative hneg'] at h
          exact .negative hx hneg hy hneg' ((payloadLe_iff hy hx).mpr (by omega))
    · -- after a NaN of positive sign there are only NaNs of positive sign
      cases hy : y.isNaN with
      | false =>
        have hkey := orderKey_of_number hy
        omega
      | true =>
        cases hneg' : y.isNegative with
        | false =>
          rw [orderKey_of_positive hpos, orderKey_of_positive hneg'] at h
          exact .positive hx hpos hy hneg' ((payloadLe_iff hx hy).mpr (by omega))
        | true =>
          rw [orderKey_of_negative hneg'] at h
          omega

theorem TotalOrder.orderKey_le (h : TotalOrder x y) : x.orderKey ≤ y.orderKey := by
  cases h with
  | less hx hy h => exact (orderKey_le_iff_of_numbers hx hy).mpr (Or.inl h)
  | zeros hx hy =>
    rw [hx, hy]
    decide
  | same h => exact h ▸ Int.le_refl _
  | negativeNaN hx hneg hy =>
    have hkey := orderKey_of_number hy
    have hxm := isNaN_iff.mp hx
    rw [orderKey_of_negative hneg]
    omega
  | positiveNaN hx hy hpos =>
    have hkey := orderKey_of_number hx
    have hym := isNaN_iff.mp hy
    rw [orderKey_of_positive hpos]
    omega
  | signs hx hneg hy hpos =>
    rw [orderKey_of_negative hneg, orderKey_of_positive hpos]
    omega
  | positive hx hposx hy hposy h =>
    have hle := (payloadLe_iff hx hy).mp h
    rw [orderKey_of_positive hposx, orderKey_of_positive hposy]
    omega
  | negative hx hnegx hy hnegy h =>
    have hle := (payloadLe_iff hy hx).mp h
    rw [orderKey_of_negative hnegx, orderKey_of_negative hnegy]
    omega

/-- Comparing order keys decides the total order. -/
theorem totalLe_iff : x.totalLe y = true ↔ TotalOrder x y :=
  totalLe_eq_true_iff.trans ⟨totalOrder_of_orderKey_le, TotalOrder.orderKey_le⟩

instance : Decidable (TotalOrder x y) := decidable_of_iff _ totalLe_iff

theorem totalLe_trans (h : x.totalLe y = true) (h' : y.totalLe z = true) : x.totalLe z = true := by
  rw [totalLe_eq_true_iff] at h h' ⊢
  exact Int.le_trans h h'

theorem totalLe_total (x y : Binary64) : (x.totalLe y || y.totalLe x) = true := by
  rw [Bool.or_eq_true, totalLe_eq_true_iff, totalLe_eq_true_iff]
  exact Int.le_total _ _

/-- No two patterns have the same place in the order. -/
theorem totalLe_antisymm (h : x.totalLe y = true) (h' : y.totalLe x = true) : x = y := by
  rw [totalLe_eq_true_iff] at h h'
  have hkey : x.orderKey = y.orderKey := Int.le_antisymm h h'
  cases hx : x.isNegative with
  | true =>
    rw [orderKey_of_negative hx] at hkey
    cases hy : y.isNegative with
    | true =>
      rw [orderKey_of_negative hy] at hkey
      exact eq_iff.mpr ⟨hx.trans hy.symm, by omega⟩
    | false =>
      rw [orderKey_of_positive hy] at hkey
      omega
  | false =>
    rw [orderKey_of_positive hx] at hkey
    cases hy : y.isNegative with
    | true =>
      rw [orderKey_of_negative hy] at hkey
      omega
    | false =>
      rw [orderKey_of_positive hy] at hkey
      exact eq_iff.mpr ⟨hx.trans hy.symm, by omega⟩

end ScriptHost.Binary64
