import Mathlib.Algebra.Order.Ring.Int
import StackLang.Proofs.ExactIntegers

/-!
# Shifts by any number of places

A shift to the left by some places is the product with a power of two, and a shift to the right is the quotient by that
power, rounded towards minus infinity. Products out of range overflow, and quotients are always in range. The places may
be negative, which reverses the direction, and there may be more of them than a word has bits.

Shifts to the left follow this rule for every word and every amount. Shifts to the right do so with one exception: zero
shifted by the least amount overflows, although the product of zero with any power of two is zero. The cause is that
this amount has no negation among the integers.
-/

namespace StackLang.Integer

/-! ## Shifts of words -/

/-- An amount below 64 is not reduced. -/
theorem toNat_places {n : ℕ} (h : n < 64) : ((Int64.ofNat n).toBitVec.smod 64).toNat = n := by
  have hall : ∀ n < 64, ((Int64.ofNat n).toBitVec.smod 64).toNat = n := by decide
  exact hall n h

/-- The arithmetic shift to the right is the quotient by a power of two. -/
theorem toInt_shiftRight (a : Integer) {n : ℕ} (h : n < 64) :
    (a >>> Int64.ofNat n).toInt = a.toInt.fdiv (2 ^ n) := by
  have hpower : (0 : ℤ) ≤ 2 ^ n := pow_nonneg two_pos.le n
  rw [← Int64.toInt_toBitVec, Int64.toBitVec_shiftRight, BitVec.sshiftRight', toNat_places h,
    BitVec.toInt_sshiftRight, Int64.toInt_toBitVec, Int.shiftRight_eq_div_pow, Int.fdiv_eq_ediv_of_nonneg _ hpower,
    Nat.cast_pow, Nat.cast_ofNat]

/-- The shift to the left is the product with a power of two, wrapped into the range of integers. -/
theorem toInt_shiftLeft (a : Integer) {n : ℕ} (h : n < 64) :
    (a <<< Int64.ofNat n).toInt = (a.toInt * 2 ^ n).bmod (2 ^ 64) := by
  rw [← Int64.toInt_toBitVec, Int64.toBitVec_shiftLeft, BitVec.shiftLeft_eq', toNat_places h,
    BitVec.toInt_shiftLeft, Nat.shiftLeft_eq, ← Int64.toInt_toBitVec, BitVec.toInt_eq_toNat_bmod a.toBitVec,
    Int.bmod_mul_bmod, Nat.cast_mul, Nat.cast_pow, Nat.cast_ofNat]

/-- Powers of two from 64 places on are beyond every word. -/
theorem word_le_two_pow {n : ℕ} (h : 64 ≤ n) : (18446744073709551616 : ℤ) ≤ 2 ^ n :=
  calc (18446744073709551616 : ℤ) = 2 ^ 64 := rfl
    _ ≤ 2 ^ n := pow_le_pow_right₀ one_le_two h

/-- Shifting down by any number of places gives the quotient by the power of two. -/
theorem toInt_shiftDown (a : Integer) (n : ℕ) : (a.shiftDown n).toInt = a.toInt.fdiv (2 ^ n) := by
  rw [shiftDown]
  by_cases h : n < 64
  · rw [if_pos h, toInt_shiftRight a h]
  · -- The quotient of a number below the divisor is minus one or zero, by its sign.
    have hpower := word_le_two_pow (Nat.le_of_not_lt h)
    have hrange := fits_iff.mp a.fits_toInt
    rw [if_neg h, Int.fdiv_eq_ediv_of_nonneg _ (by omega)]
    by_cases hsign : a < 0
    · rw [if_pos hsign, Int.ediv_eq_neg_one_of_neg_of_le (a.lt_zero_iff.mp hsign) (by omega)]
      rfl
    · rw [if_neg hsign, Int.ediv_eq_zero_of_lt (Int.not_lt.mp (mt a.lt_zero_iff.mpr hsign)) (by omega)]
      rfl

/-- Wrapping keeps exactly the numbers in range. -/
theorem bmod_eq_self_iff {m : ℤ} : m.bmod (2 ^ 64) = m ↔ Fits m := by
  rw [Int.bmod_eq_iff (by decide), fits_iff, sub_self, and_iff_left (Int.dvd_zero _)]
  omega

/-- A word that was shifted up is restored by the shift back exactly if the product is in range. -/
theorem shift_back_iff (a : Integer) {n : ℕ} (h : n < 64) :
    (a <<< Int64.ofNat n) >>> Int64.ofNat n = a ↔ Fits (a.toInt * 2 ^ n) := by
  have hpower : (0 : ℤ) < 2 ^ n := pow_pos two_pos n
  rw [← Int64.toInt_inj, toInt_shiftRight _ h, toInt_shiftLeft a h, Int.fdiv_eq_ediv_of_nonneg _ hpower.le,
    ← bmod_eq_self_iff]
  constructor
  · intro hback
    -- Wrapping subtracts a multiple of a larger power of two, so it keeps the product divisible by the smaller one.
    have hword : (2 : ℤ) ^ n ∣ ((2 ^ 64 : ℕ) : ℤ) := by
      rw [Nat.cast_pow, Nat.cast_ofNat]
      exact pow_dvd_pow 2 h.le
    have hwrap := Int.bmod_add_bdiv (a.toInt * 2 ^ n) (2 ^ 64)
    have hdvd : (2 : ℤ) ^ n ∣ (a.toInt * 2 ^ n).bmod (2 ^ 64) := by
      have hsum := dvd_mul_left (2 ^ n) a.toInt
      rw [← hwrap] at hsum
      exact (Int.dvd_add_left (hword.mul_right _)).mp hsum
    rw [← Int.ediv_mul_cancel hdvd, hback]
  · intro hwrap
    rw [hwrap, Int.mul_ediv_cancel _ hpower.ne']

/-- A word that is not zero cannot be shifted up by 64 places or more. -/
theorem not_fits_of_places {a : Integer} (ha : a ≠ 0) {n : ℕ} (h : 64 ≤ n) : ¬ Fits (a.toInt * 2 ^ n) := by
  have hpower := word_le_two_pow h
  have hnumber : a.toInt ≠ 0 := fun h => ha (Int64.toInt_inj.mp h)
  rw [fits_iff]
  rcases Int.lt_or_gt_of_ne hnumber with hnegative | hpositive
  · have hleast : a.toInt * 2 ^ n ≤ -1 * 2 ^ n := Int.mul_le_mul_of_nonneg_right (by omega) (by omega)
    omega
  · have hgreatest : 1 * 2 ^ n ≤ a.toInt * 2 ^ n := Int.mul_le_mul_of_nonneg_right (by omega) (by omega)
    omega

/-- Shifting up by any number of places gives the product with the power of two, or overflows. -/
theorem shiftUp_exactly (a : Integer) (n : ℕ) :
    Exactly (orOverflow (a.shiftUp? n)) (Fits (a.toInt * 2 ^ n)) (·.toInt = a.toInt * 2 ^ n) := by
  by_cases hzero : a = 0
  · subst hzero
    exact .of_ok (by simp) (by simpa using fits_toInt 0)
  have hguard : ¬ (a == 0) = true := by simpa using hzero
  by_cases h : n < 64
  · have hback := shift_back_iff a h
    rw [shiftUp?, if_neg hguard, if_pos h]
    refine ⟨fun hfits => ⟨a <<< Int64.ofNat n, ?_, ?_⟩, fun hnot => ?_⟩
    · simp only [hback.mpr hfits, beq_self_eq_true, if_true, orOverflow]
    · rw [toInt_shiftLeft a h, bmod_eq_self_iff.mpr hfits]
    · have hlost : ((a <<< Int64.ofNat n) >>> Int64.ofNat n == a) = false := by simpa using mt hback.mp hnot
      simp only [hlost]
      rfl
  · rw [shiftUp?, if_neg hguard, if_neg h]
    exact ⟨fun hfits => absurd hfits (not_fits_of_places hzero (Nat.le_of_not_lt h)), fun _ => rfl⟩

/-! ## The operators -/

/-- Whether a computation shifts a word by a number of places: to the left it gives the product with a power of two if
that is in range and overflows otherwise, and to the right it gives the quotient rounded towards minus infinity. -/
structure ShiftsBy (x : Except Cause Integer) (a : Integer) (places : ℤ) : Prop where
  up (n : ℕ) (h : places = n) : Exactly x (Fits (a.toInt * 2 ^ n)) (·.toInt = a.toInt * 2 ^ n)
  down (n : ℕ) (h : places = -n) : ∃ c, x = .ok c ∧ c.toInt = a.toInt.fdiv (2 ^ n)

/-- Shifting down is a shift by a negative number of places, or by none. -/
theorem shiftsBy_down (a : Integer) {n : ℕ} {places : ℤ} (h : places = -n) :
    ShiftsBy (.ok (a.shiftDown n)) a places where
  up m hm := by
    obtain rfl : m = 0 := by omega
    obtain rfl : n = 0 := by omega
    have hword : (a.shiftDown 0).toInt = a.toInt := by simpa using toInt_shiftDown a 0
    exact .of_ok (by simpa using hword) (by simpa using a.fits_toInt)
  down m hm := by
    obtain rfl : m = n := by omega
    exact ⟨_, rfl, toInt_shiftDown a m⟩

/-- Shifting up is a shift by a number of places that is not negative. -/
theorem shiftsBy_up (a : Integer) {n : ℕ} {places : ℤ} (h : places = n) :
    ShiftsBy (orOverflow (a.shiftUp? n)) a places where
  up m hm := by
    obtain rfl : m = n := by omega
    exact shiftUp_exactly a m
  down m hm := by
    obtain rfl : m = 0 := by omega
    obtain rfl : n = 0 := by omega
    simpa using (shiftUp_exactly a 0).ok (by simpa using a.fits_toInt)

/-- The left shift is by the places that its amount says. -/
theorem shiftLeft_shiftsBy (a amount : Integer) : ShiftsBy (a.shiftLeft amount) a amount.toInt := by
  rw [shiftLeft]
  by_cases hsign : amount < 0
  · rw [if_pos hsign]
    rw [lt_zero_iff] at hsign
    exact shiftsBy_down a (by omega)
  · rw [if_neg hsign]
    rw [lt_zero_iff] at hsign
    exact shiftsBy_up a (by omega)

/-- Every integer but the least has a negation. -/
theorem neg?_eq_some {a : Integer} (h : a ≠ Int64.minValue) : a.neg? = some (-a) ∧ (-a).toInt = -a.toInt := by
  have hleast : a.toInt ≠ Int64.minValue.toInt := mt Int64.toInt_inj.mp h
  have hrange := fits_iff.mp a.fits_toInt
  rw [Int64.toInt_minValue] at hleast
  constructor
  · have hoverflow : a.toBitVec.negOverflow = false := by
      simpa [BitVec.negOverflow] using hleast
    rw [neg?, hoverflow]
    rfl
  · rw [Int64.toInt_neg, bmod_eq_self_iff, fits_iff]
    omega

/-- The right shift is by as many places in the other direction, for every amount that has a negation. -/
theorem shiftRight_shiftsBy (a : Integer) {amount : Integer} (h : amount ≠ Int64.minValue) :
    ShiftsBy (a.shiftRight amount) a (-amount.toInt) := by
  rw [shiftRight]
  by_cases hsign : amount < 0
  · obtain ⟨hneg, hvalue⟩ := neg?_eq_some h
    rw [if_pos hsign, hneg, ← hvalue]
    exact shiftLeft_shiftsBy a (-amount)
  · rw [if_neg hsign]
    rw [lt_zero_iff] at hsign
    exact shiftsBy_down a (by omega)

/-- A right shift by the least amount overflows. -/
theorem shiftRight_minValue (a : Integer) : a.shiftRight Int64.minValue = .error .overflow := rfl

/-- That is right for every word but zero. -/
theorem shiftsBy_overflow_iff {a : Integer} {n : ℕ} (hn : 64 ≤ n) :
    ShiftsBy (.error .overflow) a n ↔ a ≠ 0 := by
  constructor
  · rintro h rfl
    obtain ⟨c, hc, -⟩ := (h.up n rfl).ok (by simpa using fits_toInt 0)
    cases hc
  · intro ha
    refine ⟨fun m hm => ?_, fun m hm => ?_⟩
    · obtain rfl : m = n := by omega
      exact ⟨fun hfits => absurd hfits (not_fits_of_places ha hn), fun _ => rfl⟩
    · omega

/-- Shifts are by as many places as the amount says, to the left or in the other direction to the right, except that
zero cannot be shifted to the right by the least amount. -/
theorem shiftsBy_amount (a amount : Integer) :
    ShiftsBy (a.shiftLeft amount) a amount.toInt ∧
      (ShiftsBy (a.shiftRight amount) a (-amount.toInt) ↔ ¬ (a = 0 ∧ amount = Int64.minValue)) := by
  refine ⟨shiftLeft_shiftsBy a amount, ?_⟩
  by_cases h : amount = Int64.minValue
  · subst h
    have hplaces : -Int64.minValue.toInt = (9223372036854775808 : ℕ) := rfl
    rw [shiftRight_minValue, hplaces, shiftsBy_overflow_iff (by decide), and_iff_left rfl]
  · exact iff_of_true (shiftRight_shiftsBy a h) fun hboth => h hboth.2

/-- Zero shifted to the right by the least amount overflows, although zero times any power of two is in range. -/
theorem not_shiftsBy_zero_minValue :
    shiftRight 0 Int64.minValue = .error .overflow ∧
      ¬ ShiftsBy (shiftRight 0 Int64.minValue) 0 (-Int64.minValue.toInt) := by
  have hplaces : -Int64.minValue.toInt = (9223372036854775808 : ℕ) := rfl
  rw [shiftRight_minValue, hplaces, shiftsBy_overflow_iff (by decide)]
  exact ⟨rfl, fun h => h rfl⟩

end StackLang.Integer
