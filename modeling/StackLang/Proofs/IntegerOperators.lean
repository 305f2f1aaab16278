import Mathlib.Data.Rat.Floor
import StackLang.Proofs.Powers

/-!
# Operators on two integers

Sums, differences, products, quotients, remainders and powers of two integers are those of the whole numbers they stand
for. A result out of range is reported as overflow and never wraps.

Quotients are the floor of the rational quotient, and remainders belong to them: a remainder is zero or has the sign of
the divisor. Both are computed from the quotient rounded towards zero, which has a remainder with the sign of the
dividend. A remainder is always in range, also where its quotient is not.

The exponent of a power is limited to 32 bits. A larger exponent is refused for every base, although the powers of 0, 1
and -1 stay in range.
-/

namespace StackLang

/-! ## Quotients and remainders of whole numbers -/

section

variable {m n : ℤ}

/-- A remainder of the quotient rounded towards zero has the sign of the dividend. -/
theorem tmod_neg_iff (h : m.tmod n ≠ 0) : m.tmod n < 0 ↔ m < 0 := by
  rcases Int.le_total 0 m with hm | hm
  · have := Int.tmod_nonneg n hm
    omega
  · have hopposite := Int.tmod_nonneg n (Int.neg_nonneg_of_nonpos hm)
    rw [Int.neg_tmod] at hopposite
    have hzero : m ≠ 0 := by
      intro hm
      simp [hm] at h
    omega

/-- The remainder of the quotient rounded towards minus infinity is that of the quotient rounded towards zero, plus the
divisor if a remainder is left whose sign is not that of the divisor. -/
theorem fmod_eq_tmod_add (hn : n ≠ 0) :
    m.fmod n = if m.tmod n ≠ 0 ∧ ((m.tmod n < 0) ≠ (n < 0)) then m.tmod n + n else m.tmod n := by
  have hsign : (m.tmod n ≠ 0 ∧ ((m.tmod n < 0) ≠ (n < 0))) ↔ (m.tmod n ≠ 0 ∧ ((m < 0) ≠ (n < 0))) :=
    and_congr_right fun h => by rw [tmod_neg_iff h]
  simp only [hsign]
  rw [Int.fmod_def, Integer.fdiv_eq_tdiv_sub hn]
  split
  · rw [Int.tmod_def]
    ring
  · rw [Int.tmod_def]

/-- A remainder of the quotient rounded towards minus infinity is zero or has the sign of the divisor, and it is smaller
than the divisor. -/
theorem fmod_bounds (hn : n ≠ 0) : (m.fmod n = 0 ∨ (m.fmod n).sign = n.sign) ∧ |m.fmod n| < |n| := by
  have hpositive {m n : ℤ} (hn : 0 < n) : (m.fmod n = 0 ∨ (m.fmod n).sign = n.sign) ∧ |m.fmod n| < |n| := by
    have hlow := Int.fmod_nonneg_of_pos m hn
    rw [abs_of_nonneg hlow, abs_of_pos hn, Int.sign_eq_one_of_pos hn, Int.sign_eq_one_iff_pos]
    exact ⟨hlow.eq_or_lt.imp_left Eq.symm, Int.fmod_lt_of_pos m hn⟩
  rcases Int.lt_or_gt_of_ne hn with hnegative | hn
  · have hopposite := hpositive (m := -m) (n := -n) (by omega)
    simpa only [Int.neg_fmod_neg, Int.neg_eq_zero, Int.sign_neg, neg_inj, abs_neg] using hopposite
  · exact hpositive hn

/-- The quotient rounded towards minus infinity is the floor of the rational quotient. -/
theorem floor_div_eq_fdiv (m n : ℤ) : ⌊(m : ℚ) / n⌋ = m.fdiv n := by
  have hnonneg {m n : ℤ} (hn : 0 ≤ n) : ⌊(m : ℚ) / n⌋ = m.fdiv n := by
    rw [Int.floor_div_cast_of_nonneg hn, Int.floor_intCast, Int.fdiv_eq_ediv_of_nonneg m hn]
  rcases Int.le_total 0 n with hn | hn
  · exact hnonneg hn
  · have hopposite := hnonneg (m := -m) (n := -n) (by omega)
    rwa [Int.cast_neg, Int.cast_neg, neg_div_neg_eq, Int.neg_fdiv_neg] at hopposite

end

namespace Integer

variable {a b : Integer}

/-- The remainder of words is that of the numbers, also where the quotient overflows. -/
theorem toInt_getD_rem? (hb : b ≠ 0) : ((a.rem? b).getD 0).toInt = a.toInt.tmod b.toInt := by
  by_cases hleast : a = Int64.minValue ∧ b = -1
  · obtain ⟨rfl, rfl⟩ := hleast
    rfl
  · rw [rem?_eq_some hb hleast, Option.getD_some, Int64.toInt_mod]

/-- Division by anything but zero has a remainder, which is exact. -/
theorem floorMod_eq_ok (hb : b ≠ 0) : ∃ r, a.floorMod b = .ok r ∧ r.toInt = a.toInt.fmod b.toInt := by
  have hremainder := toInt_getD_rem? (a := a) hb
  rw [floorMod, if_neg hb]
  generalize (a.rem? b).getD 0 = remainder at hremainder
  have hround : (remainder ≠ 0 ∧ ((remainder < 0) ≠ (b < 0))) ↔
      remainder.toInt ≠ 0 ∧ ((remainder.toInt < 0) ≠ (b.toInt < 0)) := by
    simp [← Int64.toInt_inj, Int64.lt_iff_toInt_lt]
  rw [fmod_eq_tmod_add (toInt_ne_zero hb), ← hremainder]
  by_cases h : remainder ≠ 0 ∧ ((remainder < 0) ≠ (b < 0))
  · -- The signs differ, so the sum is between the remainder and the divisor.
    have hfits : Fits (remainder.toInt + b.toInt) := by
      have hsmaller := fits_iff.mp remainder.fits_toInt
      have hdivisor := fits_iff.mp b.fits_toInt
      have hsigns := (hround.mp h).2
      rw [ne_eq, eq_iff_iff] at hsigns
      rw [fits_iff]
      omega
    obtain ⟨r, hr⟩ := Option.isSome_iff_exists.mp (isSome_add? hfits.1 hfits.2)
    have hsum : remainder.sum b = .ok r := by rw [sum, hr, orOverflow]
    refine ⟨r, ?_, ?_⟩
    · rw [if_pos h, hr, orDefect]
    · rw [if_pos (hround.mp h), (remainder.sum_exactly b).of_eq_ok hsum]
  · exact ⟨remainder, if_neg h, (if_neg (mt hround.mpr h)).symm⟩

/-- A quotient is out of range in one case only. -/
theorem fits_fdiv_iff (hb : b ≠ 0) : Fits (a.toInt.fdiv b.toInt) ↔ ¬ (a = Int64.minValue ∧ b = -1) := by
  constructor
  · rintro hfits ⟨rfl, rfl⟩
    revert hfits
    rw [fits_iff]
    decide
  · intro h
    obtain ⟨c, -, hc⟩ := (floorDiv_exactly hb).ok h
    rw [← hc]
    exact c.fits_toInt

end Integer

open Integer (Fits)

/-! ## Arithmetic -/

/-- Whether operators are exact on integers: what they give if the result is in range, and how they fail. -/
structure ExactOnIntegers (apply : BinaryOp → Value → Value → Except Cause Value) : Prop where
  sum (a b : Integer) :
    Exactly (apply .add (.integer a) (.integer b)) (Fits (a.toInt + b.toInt)) (Value.IsInteger (a.toInt + b.toInt))
  difference (a b : Integer) :
    Exactly (apply .sub (.integer a) (.integer b)) (Fits (a.toInt - b.toInt)) (Value.IsInteger (a.toInt - b.toInt))
  product (a b : Integer) :
    Exactly (apply .mul (.integer a) (.integer b)) (Fits (a.toInt * b.toInt)) (Value.IsInteger (a.toInt * b.toInt))
  quotient (a : Integer) {b : Integer} (hb : b ≠ 0) :
    Exactly (apply .div (.integer a) (.integer b)) (Fits ⌊(a.toInt : ℚ) / b.toInt⌋)
      (Value.IsInteger ⌊(a.toInt : ℚ) / b.toInt⌋)
  quotientFits (a : Integer) {b : Integer} (hb : b ≠ 0) :
    Fits ⌊(a.toInt : ℚ) / b.toInt⌋ ↔ ¬ (a = Int64.minValue ∧ b = -1)
  /-- A remainder is there also if the quotient is out of range. -/
  remainder (a : Integer) {b : Integer} (hb : b ≠ 0) :
    ∃ r : Integer, apply .mod (.integer a) (.integer b) = .ok (.integer r) ∧
      r.toInt = a.toInt - b.toInt * ⌊(a.toInt : ℚ) / b.toInt⌋ ∧
      (r.toInt = 0 ∨ r.toInt.sign = b.toInt.sign) ∧ |r.toInt| < |b.toInt|
  quotientByZero (a : Integer) : apply .div (.integer a) (.integer 0) = .error .divisionByZero
  remainderByZero (a : Integer) : apply .mod (.integer a) (.integer 0) = .error .divisionByZero
  dividend {a b q r : Integer} (hq : apply .div (.integer a) (.integer b) = .ok (.integer q))
      (hr : apply .mod (.integer a) (.integer b) = .ok (.integer r)) :
    q.toInt * b.toInt + r.toInt = a.toInt

namespace BinaryOp

open Operation (exactly_isInteger)

variable {a b : Integer}

/-- Quotients are floors, if they are in range. -/
theorem apply_div_exactly (hb : b ≠ 0) :
    Exactly (apply .div (.integer a) (.integer b)) (Fits ⌊(a.toInt : ℚ) / b.toInt⌋)
      (Value.IsInteger ⌊(a.toInt : ℚ) / b.toInt⌋) := by
  rw [floor_div_eq_fdiv]
  exact exactly_isInteger ((Integer.floorDiv_exactly hb).congr (Integer.fits_fdiv_iff hb).symm)

/-- Remainders are what the floors leave. -/
theorem apply_mod_eq_ok (hb : b ≠ 0) :
    ∃ r : Integer, apply .mod (.integer a) (.integer b) = .ok (.integer r) ∧ r.toInt = a.toInt.fmod b.toInt := by
  obtain ⟨r, hr, hvalue⟩ := Integer.floorMod_eq_ok (a := a) hb
  refine ⟨r, ?_, hvalue⟩
  change (do return Value.integer (← a.floorMod b)) = _
  rw [hr]
  rfl

/-- A quotient and its remainder make up the dividend. -/
theorem quotient_mul_add_remainder {q r : Integer} (hq : apply .div (.integer a) (.integer b) = .ok (.integer q))
    (hr : apply .mod (.integer a) (.integer b) = .ok (.integer r)) : q.toInt * b.toInt + r.toInt = a.toInt := by
  by_cases hb : b = 0
  · subst hb
    cases hq
  · obtain ⟨_, ⟨⟩, hquotient⟩ := (apply_div_exactly hb).of_eq_ok hq
    obtain ⟨_, hremainder, hvalue⟩ := apply_mod_eq_ok (a := a) hb
    cases hr.symm.trans hremainder
    rw [hquotient, floor_div_eq_fdiv, hvalue, Int.fdiv_mul_add_fmod]

/-- Arithmetic on two integers is exact. Sums, differences, products and quotients out of range overflow, of the
quotients by anything but zero this is one only, and a divisor of zero is refused. -/
theorem apply_exactOnIntegers : ExactOnIntegers apply where
  sum a b := exactly_isInteger (a.sum_exactly b)
  difference a b := exactly_isInteger (a.difference_exactly b)
  product a b := exactly_isInteger (a.product_exactly b)
  quotient a b hb := apply_div_exactly hb
  quotientFits a b hb := by rw [floor_div_eq_fdiv, Integer.fits_fdiv_iff hb]
  remainder a b hb := by
    obtain ⟨r, hr, hvalue⟩ := apply_mod_eq_ok (a := a) hb
    have hbounds := fmod_bounds (m := a.toInt) (Integer.toInt_ne_zero hb)
    rw [← hvalue] at hbounds
    exact ⟨r, hr, by rw [hvalue, floor_div_eq_fdiv, Int.fmod_def], hbounds⟩
  quotientByZero a := rfl
  remainderByZero a := rfl
  dividend hq hr := quotient_mul_add_remainder hq hr

/-- The least integer has a remainder by -1 and no quotient. -/
theorem apply_exactOnIntegers_least :
    apply .div (.integer Int64.minValue) (.integer (-1)) = .error .overflow ∧
      ∃ r : Integer, apply .mod (.integer Int64.minValue) (.integer (-1)) = .ok (.integer r) ∧ r.toInt = 0 := by
  have hb : (-1 : Integer) ≠ 0 := by decide
  constructor
  · refine (apply_exactOnIntegers.quotient Int64.minValue hb).overflow fun hfits => ?_
    exact (apply_exactOnIntegers.quotientFits Int64.minValue hb).mp hfits ⟨rfl, rfl⟩
  · obtain ⟨r, hr, -, -, hsmall⟩ := apply_exactOnIntegers.remainder Int64.minValue hb
    exact ⟨r, hr, Int.abs_lt_one_iff.mp hsmall⟩

end BinaryOp

/-! ## Powers -/

/-- If a power is in range, so are the powers with smaller exponents. -/
theorem Integer.fits_pow_of_le {m : ℤ} {i k : ℕ} (hik : i ≤ k) (hfits : Fits (m ^ k)) : Fits (m ^ i) := by
  rcases hik.eq_or_lt with rfl | hlt
  · exact hfits
  by_cases hm : |m| ≤ 1
  · have hsize : |m ^ i| ≤ 1 := by
      rw [abs_pow]
      exact pow_le_one₀ (abs_nonneg m) hm
    exact fits_of_abs_le hsize (fits_toInt 1)
  · -- The greater power may be the least integer, whose absolute value is not in range.
    have hgrows : |m ^ i| < |m ^ k| := by
      rw [abs_pow, abs_pow]
      exact pow_lt_pow_right₀ (not_le.mp hm) hlt
    rw [fits_iff] at hfits
    have hgreater : |m ^ k| ≤ 9223372036854775808 := abs_le.mpr ⟨hfits.1, by omega⟩
    have hsize : |m ^ i| ≤ 9223372036854775807 := by omega
    exact fits_of_abs_le hsize (fits_toInt Int64.maxValue)

namespace Operation

/-- Powers of an integer are exact, or they overflow because they are out of range. -/
theorem powerFrom_integer_exactly (b : Integer) (k : ℕ) :
    Exactly (powerFrom Integer.product 1 b k) (Fits (b.toInt ^ k)) (·.toInt = b.toInt ^ k) := by
  have hproduct (i j : ℕ) (x y : Integer) (hle : i + j ≤ k) (hx : x.toInt = b.toInt ^ i) (hy : y.toInt = b.toInt ^ j) :
      EndsAlike (fun c : Integer => c.toInt = b.toInt ^ (i + j))
        (fun cause => cause = .overflow ∧ ¬ Fits (b.toInt ^ k)) (x.product y) (x.product y) := by
    have hexactly := x.product_exactly y
    rw [hx, hy, ← pow_add] at hexactly
    by_cases hfits : Fits (b.toInt ^ (i + j))
    · obtain ⟨c, hc, hvalue⟩ := hexactly.ok hfits
      rw [hc]
      exact .ok hvalue
    · rw [hexactly.overflow hfits]
      exact .error ⟨rfl, mt (Integer.fits_pow_of_le hle) hfits⟩
  have hone : Int64.toInt 1 = b.toInt ^ 0 := (pow_zero _).symm
  have hbase : b.toInt = b.toInt ^ 1 := (pow_one _).symm
  have hends :=
    powerFrom_endsAlike (fun i (c : Integer) => c.toInt = b.toInt ^ i) hproduct (n := k) hone hbase (by omega)
  exact hends.exactly fun c hc => hc ▸ c.fits_toInt

/-- A power with an exponent that is not negative is computed from the exponent, if that is accepted. -/
theorem power_integer {b e : Integer} (he : 0 ≤ e) :
    power (.integer b) (.integer e) = (do return .integer (← powerFrom Integer.product 1 b (← e.toExponent))) :=
  if_pos he

/-- An integer raised to an exponent below 2^32 gives the power if it is in range and overflows otherwise. Greater
exponents are refused for every base. -/
theorem power_integers_exact (b : Integer) {e : Integer} {k : ℕ} (he : e.toInt = k) :
    (k ≤ 4294967295 →
      Exactly (power (.integer b) (.integer e)) (Fits (b.toInt ^ k)) (Value.IsInteger (b.toInt ^ k))) ∧
    (4294967295 < k → power (.integer b) (.integer e) = .error .literalTooLarge) := by
  have hsign : 0 ≤ e := by
    rw [Int64.le_iff_toInt_le, he]
    exact Int.natCast_nonneg k
  rw [power_integer hsign]
  constructor
  · intro hk
    rw [Integer.toExponent_of_le he hk]
    exact exactly_isInteger (powerFrom_integer_exactly b k)
  · intro hk
    rw [Integer.toExponent_of_gt he hk]
    rfl

/-- The least integer is a power whose counterpart without the sign is out of range. -/
theorem power_integers_exact_least :
    (∃ v, power (.integer (-2)) (.integer 63) = .ok v ∧ v.IsInteger (-9223372036854775808)) ∧
      power (.integer 2) (.integer 63) = .error .overflow ∧
      power (.integer 2) (.integer 4294967296) = .error .literalTooLarge := by
  have hexact (b : Integer) := (power_integers_exact b (e := 63) (k := 63) rfl).1 (by decide)
  refine ⟨(hexact (-2)).ok (by decide), (hexact 2).overflow (by decide), ?_⟩
  exact (power_integers_exact 2 (e := 4294967296) (k := 4294967296) rfl).2 (by decide)

/-- One raised to an exponent of 2^32 is refused, although all powers of one are in range. -/
theorem not_exact_power_one :
    power (.integer 1) (.integer 4294967296) = .error .literalTooLarge ∧
      ¬ Exactly (power (.integer 1) (.integer 4294967296)) (Fits (1 ^ 4294967296))
        (Value.IsInteger (1 ^ 4294967296)) := by
  have hrefused : power (.integer 1) (.integer 4294967296) = .error .literalTooLarge := rfl
  refine ⟨hrefused, fun h => ?_⟩
  rw [hrefused, one_pow] at h
  obtain ⟨v, hv, -⟩ := h.ok (Integer.fits_toInt 1)
  cases hv

end Operation

end StackLang
