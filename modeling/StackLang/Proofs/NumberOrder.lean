import Mathlib.Algebra.Order.Field.Power
import Mathlib.Algebra.Order.Field.Rat
import StackLang.Operation.Comparison
import StackLang.Proofs.ExactIntegers

/-!
# Numbers are compared exactly

Every number has a place on one line, on which the rationals lie between two infinities and what is not a number lies
above all of them. The place of a float is read off the fields of its bit pattern. Two numbers are ordered as their
places are, whether they are integers or floats.

The comparison of an integer with a float looks at the range of integers, at the whole part of the float and at its
fraction. It agrees with the order of standings, in which both numbers are counted in the smallest unit of floats.
-/

namespace StackLang

/-! ## An integer and a float -/

/-- The order of integers is that of their numbers. -/
theorem Integer.compare_toInt (a b : Integer) : compare a.toInt b.toInt = compare a b := by
  simp [compare, compareOfLessAndEq, Int64.lt_iff_toInt_lt, Int64.toInt_inj]

/-- A number is compared with a quotient by the whole part, and by the remainder if the whole part is the number. -/
theorem compare_tdiv_then_tmod (n u : ℤ) {d : ℤ} (hd : 0 < d) :
    (compare n (u.tdiv d)).then (compare 0 (u.tmod d)) = compare (n * d) u := by
  have hu := Int.mul_tdiv_add_tmod u d
  have hlow := Int.lt_tmod_of_pos u hd
  have hhigh := Int.tmod_lt_of_pos u hd
  rw [Int.mul_comm] at hu
  rcases Int.lt_trichotomy n (u.tdiv d) with hlt | heq | hgt
  · have hbelow : (n + 1) * d ≤ u.tdiv d * d := Int.mul_le_mul_of_nonneg_right hlt hd.le
    rw [Int.add_mul, Int.one_mul] at hbelow
    have horder : n * d < u := by omega
    rw [Int.compare_eq_lt.mpr hlt, Int.compare_eq_lt.mpr horder, Ordering.lt_then]
  · -- Only the remainder is left on both sides.
    rw [heq, Int.compare_eq_eq.mpr rfl, Ordering.eq_then]
    simp only [compare, compareOfLessAndEq]
    grind
  · have habove : (u.tdiv d + 1) * d ≤ n * d := Int.mul_le_mul_of_nonneg_right hgt hd.le
    rw [Int.add_mul, Int.one_mul] at habove
    have horder : u < n * d := by omega
    rw [Int.compare_eq_gt.mpr hgt, Int.compare_eq_gt.mpr horder, Ordering.gt_then]

/-- The whole part of a quotient is within the bound of the quotient. -/
theorem tdiv_within {u d bound : ℤ} (hd : 0 < d) (hbound : 0 < bound) (hlow : -bound * d ≤ u) (hhigh : u < bound * d) :
    -bound ≤ u.tdiv d ∧ u.tdiv d < bound := by
  rcases Int.le_total 0 u with hnonneg | hnonpos
  · have hquotient := Int.ediv_lt_of_lt_mul hd hhigh
    have := Int.ediv_nonneg hnonneg hd.le
    rw [Int.tdiv_eq_ediv_of_nonneg hnonneg]
    omega
  · have hflip : 0 ≤ -u := by omega
    have hquotient : -u / d ≤ bound := Int.ediv_le_of_le_mul hd (by rw [Int.neg_mul] at hlow; omega)
    have := Int.ediv_nonneg hflip hd.le
    have htdiv : u.tdiv d = -(-u / d) := by
      rw [← Int.tdiv_eq_ediv_of_nonneg hflip, Int.neg_tdiv, Int.neg_neg]
    omega

namespace Standing

/-- The number of units in one. -/
def unitsPerOne : ℤ := Nat.pow 2 Binary64.unitPlaces

/-- One has units. -/
theorem unitsPerOne_pos : 0 < unitsPerOne := by
  rw [unitsPerOne, Nat.pow_eq, Nat.cast_pow]
  exact pow_pos two_pos _

/-- The bounds of the range of integers are 2^63 and its negation. -/
theorem ofBinary64_integerBound (negative : Bool) :
    ofBinary64 (.integerBound negative) =
      ⟨1, (if negative then -9223372036854775808 else 9223372036854775808) * unitsPerOne⟩ := by
  have hpower (places : ℕ) : Nat.pow 2 52 * Nat.pow 2 (places + 11) = 9223372036854775808 * Nat.pow 2 places := by
    rw [Nat.pow_eq, Nat.pow_eq, Nat.pow_eq, Nat.pow_add]
    omega
  cases negative with
  | false =>
    rw [Binary64.integerBound, ofBinary64, Binary64.hiddenBit, hpower, Nat.cast_mul]
    rfl
  | true =>
    rw [Binary64.integerBound, ofBinary64, Binary64.hiddenBit, hpower, Nat.cast_mul, ← Int.neg_mul]
    rfl

/-- Finite values are ordered by their units. -/
theorem order_finite (u v : ℤ) : order ⟨1, u⟩ ⟨1, v⟩ = compare u v := rfl

/-- Every number that is finite has the rank of finite values. -/
theorem exists_ofBinary64_finite (negative : Bool) (mantissa exponent : ℕ) :
    ∃ u, ofBinary64 (.finite negative mantissa exponent) = ⟨1, u⟩ := by
  cases negative with
  | false => exact ⟨_, rfl⟩
  | true => exact ⟨_, rfl⟩

end Standing

/-- An integer and a finite number are compared by their units. -/
theorem Integer.orderBinary64_of_finite (n : Integer) {x : Binary64} {u : ℤ} (hx : Standing.ofBinary64 x = ⟨1, u⟩) :
    n.orderBinary64 x = compare (n.toInt * Standing.unitsPerOne) u := by
  have hpos := Standing.unitsPerOne_pos
  have hrange := fits_iff.mp n.fits_toInt
  have hnumber : x ≠ .notANumber := by
    rintro rfl
    cases hx
  have habove : (x.order (.integerBound false)).isGE = true ↔ 9223372036854775808 * Standing.unitsPerOne ≤ u := by
    rw [Binary64.order, hx, Standing.ofBinary64_integerBound, Standing.order_finite, Int.isGE_compare]
    rfl
  have hbelow : (x.order (.integerBound true)).isLT = true ↔ u < -9223372036854775808 * Standing.unitsPerOne := by
    rw [Binary64.order, hx, Standing.ofBinary64_integerBound, Standing.order_finite, Ordering.isLT_iff_eq_lt,
      Int.compare_eq_lt]
    rfl
  rw [orderBinary64]
  by_cases hhigh : 9223372036854775808 * Standing.unitsPerOne ≤ u
  · have hmul : n.toInt * Standing.unitsPerOne < 9223372036854775808 * Standing.unitsPerOne :=
      Int.mul_lt_mul_of_pos_right (by omega) hpos
    rw [if_pos (.inr (habove.mpr hhigh)), Int.compare_eq_lt.mpr (by omega)]
  rw [if_neg (by simp only [hnumber, habove, hhigh, or_self, not_false_eq_true])]
  by_cases hlow : u < -9223372036854775808 * Standing.unitsPerOne
  · have hmul : -9223372036854775808 * Standing.unitsPerOne ≤ n.toInt * Standing.unitsPerOne :=
      Int.mul_le_mul_of_nonneg_right (by omega) hpos.le
    rw [if_pos (hbelow.mpr hlow), Int.compare_eq_gt.mpr (by omega)]
  rw [if_neg (mt hbelow.mp hlow)]
  -- Within the range of integers the whole part is an integer.
  obtain ⟨hleast, hgreatest⟩ := tdiv_within hpos (by decide) (Int.not_lt.mp hlow) (Int.not_le.mp hhigh)
  have hwhole : (Int64.ofInt x.whole).toInt = u.tdiv Standing.unitsPerOne := by
    rw [Binary64.whole, hx]
    exact Int64.toInt_ofInt_of_le hleast hgreatest
  have hfraction : x.fraction = u.tmod Standing.unitsPerOne := by
    rw [Binary64.fraction, hx]
    rfl
  rw [← compare_toInt, hwhole, hfraction, compare_tdiv_then_tmod n.toInt u hpos]

/-- An integer and a float are ordered as their standings are. -/
theorem Integer.orderBinary64_eq (n : Integer) (x : Binary64) :
    n.orderBinary64 x = (Standing.ofInteger n).order (Standing.ofBinary64 x) := by
  cases x with
  | notANumber => rfl
  | infinite negative =>
    cases negative with
    | false => rfl
    | true => rfl
  | finite negative mantissa exponent =>
    obtain ⟨u, hu⟩ := Standing.exists_ofBinary64_finite negative mantissa exponent
    rw [n.orderBinary64_of_finite hu, hu]
    rfl

/-! ## The line of numbers -/

/-- The line on which numbers have their places: minus infinity, the rationals, infinity, and above them what is not a
number. -/
abbrev NumberLine := WithTop (WithTop (WithBot ℚ))

namespace NumberLine

/-- The place of a rational. -/
def rational (q : ℚ) : NumberLine := ((q : WithBot ℚ) : WithTop (WithBot ℚ))

/-- The place below all rationals. -/
def minusInfinity : NumberLine := ((⊥ : WithBot ℚ) : WithTop (WithBot ℚ))

/-- The place above all rationals. -/
def infinity : NumberLine := (⊤ : WithTop (WithBot ℚ))

/-- The place above all others. -/
def notANumber : NumberLine := ⊤

/-- The place of a bit pattern of the binary64 format. After the sign there are eleven bits for the exponent, which is
biased by 1023, and 52 bits for the fraction. The fraction is added to one, except with the least exponent, and the
greatest exponent is that of infinities and of what is not a number. -/
def ofBits (bits : BitVec 64) : NumberLine :=
  let exponent := bits.extractLsb' 52 11
  let fraction := bits.extractLsb' 0 52
  let sign : ℚ := if bits.msb then -1 else 1
  if exponent = BitVec.allOnes 11 then
    if fraction = 0 then if bits.msb then minusInfinity else infinity else notANumber
  else if exponent = 0 then rational (sign * (fraction.toNat / 2 ^ 52) * 2 ^ (-1022 : ℤ))
  else rational (sign * (1 + fraction.toNat / 2 ^ 52) * 2 ^ (exponent.toNat - 1023 : ℤ))

/-- The places of rationals are ordered as the rationals. -/
theorem cmp_rational (p q : ℚ) : cmp (rational p) (rational q) = cmp p q := by
  have hmono : StrictMono rational := fun p q h =>
    WithTop.coe_lt_coe.mpr (WithTop.coe_lt_coe.mpr (WithBot.coe_lt_coe.mpr h))
  exact hmono.cmp_map_eq p q

end NumberLine

namespace Standing

/-- Whether a standing belongs to a place on the line. -/
inductive At : Standing → NumberLine → Prop where
  | minusInfinity : At ⟨0, 0⟩ .minusInfinity
  | rational (u : ℤ) : At ⟨1, u⟩ (.rational (u / 2 ^ 1074))
  | infinity : At ⟨2, 0⟩ .infinity
  | notANumber : At ⟨3, 0⟩ .notANumber

variable {a b : Standing} {p q : NumberLine}

/-- A lower rank is a lower place. -/
theorem At.lt_of_rank_lt (ha : At a p) (hb : At b q) (h : a.rank < b.rank) : p < q := by
  -- Of sixteen pairs of places, six have ranks in this order.
  cases ha <;> cases hb <;> simp at h
  · exact WithTop.coe_lt_coe.mpr (WithTop.coe_lt_coe.mpr (WithBot.bot_lt_coe _))
  · exact WithTop.coe_lt_coe.mpr (WithTop.coe_lt_top _)
  · exact WithTop.coe_lt_top _
  · exact WithTop.coe_lt_coe.mpr (WithTop.coe_lt_top _)
  · exact WithTop.coe_lt_top _
  · exact WithTop.coe_lt_top _

/-- Rationals are ordered as they are counted in units. -/
theorem cmp_units (u v : ℤ) : cmp (NumberLine.rational (u / 2 ^ 1074)) (.rational (v / 2 ^ 1074)) = compare u v := by
  have hmono : StrictMono fun u : ℤ => (u / 2 ^ 1074 : ℚ) := fun u v h =>
    div_lt_div_of_pos_right (Int.cast_lt.mpr h) (pow_pos two_pos _)
  rw [NumberLine.cmp_rational, ← cmp_eq_compare]
  exact hmono.cmp_map_eq u v

/-- Standings are ordered as their places are. -/
theorem At.order_eq (ha : At a p) (hb : At b q) : a.order b = cmp p q := by
  rw [order]
  rcases Nat.lt_trichotomy a.rank b.rank with hlt | heq | hgt
  · rw [Nat.compare_eq_lt.mpr hlt, Ordering.lt_then, (cmp_eq_lt_iff p q).mpr (ha.lt_of_rank_lt hb hlt)]
  · rw [Nat.compare_eq_eq.mpr heq, Ordering.eq_then]
    cases ha <;> cases hb <;> cases heq
    · exact (cmp_self_eq_eq _).symm
    · exact (cmp_units _ _).symm
    · exact (cmp_self_eq_eq _).symm
    · exact (cmp_self_eq_eq _).symm
  · rw [Nat.compare_eq_gt.mpr hgt, Ordering.gt_then, (cmp_eq_gt_iff p q).mpr (hb.lt_of_rank_lt ha hgt)]

/-- A finite standing has the place of the number that it counts. -/
theorem at_rational {u : ℤ} {x : ℚ} (hx : x * 2 ^ 1074 = u) : At ⟨1, u⟩ (.rational x) := by
  rw [(eq_div_iff (pow_ne_zero _ two_ne_zero)).mpr hx]
  exact .rational u

/-- An integer has the place of its number. -/
theorem at_ofInteger (n : Integer) : At (ofInteger n) (.rational n.toInt) := by
  refine at_rational ?_
  rw [Nat.pow_eq, Int.cast_mul, Nat.cast_pow, Int.cast_pow]
  rfl

/-- A finite number has the place of its value. -/
theorem at_finite (negative : Bool) (mantissa exponent : ℕ) {x : ℚ}
    (hx : x * 2 ^ 1074 = (if negative then -1 else 1) * (mantissa * 2 ^ exponent)) :
    At (ofBinary64 (.finite negative mantissa exponent)) (.rational x) := by
  cases negative with
  | false =>
    refine at_rational (hx.trans ?_)
    rw [Nat.pow_eq, Int.cast_natCast, Nat.cast_mul, Nat.cast_pow, Nat.cast_ofNat]
    exact one_mul _
  | true =>
    refine at_rational (hx.trans ?_)
    rw [Nat.pow_eq, Int.cast_neg, Int.cast_natCast, Nat.cast_mul, Nat.cast_pow, Nat.cast_ofNat]
    exact neg_one_mul _

end Standing

/-- The fields of a bit pattern. -/
theorem Binary64.ofBits_toNat (bits : BitVec 64) :
    ofBits bits.toNat =
      if bits.extractLsb' 52 11 = BitVec.allOnes 11 then
        if bits.extractLsb' 0 52 = 0 then infinite bits.msb else notANumber
      else if bits.extractLsb' 52 11 = 0 then finite bits.msb (bits.extractLsb' 0 52).toNat 0
      else finite bits.msb (hiddenBit + (bits.extractLsb' 0 52).toNat) ((bits.extractLsb' 52 11).toNat - 1) := by
  have hexponent : (bits.extractLsb' 52 11).toNat = bits.toNat / hiddenBit % 2048 := by
    rw [BitVec.extractLsb'_toNat, Nat.shiftRight_eq_div_pow]
    rfl
  have hfraction : (bits.extractLsb' 0 52).toNat = bits.toNat % hiddenBit := by
    rw [BitVec.extractLsb'_toNat]
    rfl
  have hsign : bits.toNat.testBit 63 = bits.msb := by
    rw [BitVec.msb_eq_getLsbD_last]
    rfl
  simp only [ofBits, ← hexponent, ← hfraction, hsign, BitVec.toNat_eq]
  rfl

/-- The units of a number with the least exponent. -/
theorem subnormal_mul_units (f : ℚ) : f / 2 ^ 52 * 2 ^ (-1022 : ℤ) * 2 ^ 1074 = f := by
  have hplaces : 1074 = 1022 + 52 := rfl
  have hpower : (2 : ℚ) ^ (-1022 : ℤ) = (2 ^ 1022)⁻¹ := by rw [zpow_neg, zpow_ofNat]
  rw [hplaces, pow_add, hpower, mul_assoc, inv_mul_cancel_left₀ (pow_ne_zero _ two_ne_zero),
    div_mul_cancel₀ _ (pow_ne_zero _ two_ne_zero)]

/-- The units of a number with any other exponent. -/
theorem normal_mul_units (f : ℚ) {exponent : ℕ} (h : exponent ≠ 0) :
    (1 + f / 2 ^ 52) * 2 ^ (exponent - 1023 : ℤ) * 2 ^ 1074 = (2 ^ 52 + f) * 2 ^ (exponent - 1) := by
  obtain ⟨k, rfl⟩ := Nat.exists_eq_succ_of_ne_zero h
  have hexponent : ((k.succ : ℕ) : ℤ) - 1023 = k + -1022 := by omega
  have hpower : (2 : ℚ) ^ ((k : ℤ) + -1022) = 2 ^ k * 2 ^ (-1022 : ℤ) := by
    rw [zpow_add₀ two_ne_zero, zpow_natCast]
  have hone : (1 + f / 2 ^ 52) = (2 ^ 52 + f) / 2 ^ 52 := by
    rw [add_div, div_self (pow_ne_zero _ two_ne_zero)]
  rw [hexponent, hpower, hone, Nat.succ_sub_one, mul_left_comm, mul_assoc, subnormal_mul_units, mul_comm]

/-- A float has the place that its bit pattern says. -/
theorem Standing.at_ofBits (bits : BitVec 64) :
    At (ofBinary64 (Binary64.ofBits bits.toNat)) (NumberLine.ofBits bits) := by
  rw [Binary64.ofBits_toNat, NumberLine.ofBits]
  by_cases hspecial : bits.extractLsb' 52 11 = BitVec.allOnes 11
  · simp only [hspecial, if_true]
    by_cases hinfinite : bits.extractLsb' 0 52 = 0
    · simp only [hinfinite, if_true]
      cases bits.msb with
      | false => exact .infinity
      | true => exact .minusInfinity
    · simp only [hinfinite, if_false]
      exact .notANumber
  · simp only [hspecial, if_false]
    by_cases hsmall : bits.extractLsb' 52 11 = 0
    · simp only [hsmall, if_true]
      refine at_finite _ _ _ ?_
      rw [mul_assoc, mul_assoc, ← mul_assoc (_ / _), subnormal_mul_units, pow_zero, mul_one]
    · have hexponent : (bits.extractLsb' 52 11).toNat ≠ 0 := fun h => hsmall (BitVec.eq_of_toNat_eq h)
      simp only [hsmall, if_false]
      refine at_finite _ _ _ ?_
      rw [mul_assoc, mul_assoc, ← mul_assoc (_ + _), normal_mul_units _ hexponent, Nat.cast_add]
      rfl

/-! ## The order of numbers -/

/-- The place of a number on the line. -/
def Value.place? : Value → Option NumberLine
  | .integer n => some (.rational n.toInt)
  | .float x => some (.ofBits x.toBits.toBitVec)
  | _ => none

namespace Operation

/-- Two integers are ordered as their places are. -/
theorem compare_eq_cmp (a b : Integer) : compare a b = cmp (NumberLine.rational a.toInt) (.rational b.toInt) := by
  rw [NumberLine.cmp_rational, Int.cast_strictMono.cmp_map_eq, cmp_eq_compare]
  exact (Integer.compare_toInt a b).symm

/-- An integer and a float are ordered as their places are. -/
theorem orderBinary64_eq_cmp (a : Integer) (y : Float) :
    a.orderBinary64 (Binary64.ofFloat y) = cmp (NumberLine.rational a.toInt) (.ofBits y.toBits.toBitVec) := by
  rw [Integer.orderBinary64_eq]
  exact (Standing.at_ofInteger a).order_eq (Standing.at_ofBits y.toBits.toBitVec)

/-- Two floats are ordered as their places are. -/
theorem order_eq_cmp (x y : Float) :
    (Binary64.ofFloat x).order (Binary64.ofFloat y) =
      cmp (NumberLine.ofBits x.toBits.toBitVec) (.ofBits y.toBits.toBitVec) :=
  (Standing.at_ofBits x.toBits.toBitVec).order_eq (Standing.at_ofBits y.toBits.toBitVec)

/-- Two values with places are ordered as their places are. -/
theorem numberOrder?_of_place {left right : Value} {p q : NumberLine} (hleft : left.place? = some p)
    (hright : right.place? = some q) : numberOrder? left right = some (cmp p q) := by
  cases left with
  | integer a =>
    cases hleft
    cases right with
    | integer b =>
      cases hright
      exact congrArg some (compare_eq_cmp a b)
    | float y =>
      cases hright
      exact congrArg some (orderBinary64_eq_cmp a y)
    | _ => cases hright
  | float x =>
    cases hleft
    cases right with
    | integer b =>
      cases hright
      have hswap := congrArg Ordering.swap (orderBinary64_eq_cmp b x)
      rw [cmp_swap] at hswap
      exact congrArg some hswap
    | float y =>
      cases hright
      exact congrArg some (order_eq_cmp x y)
    | _ => cases hright
  | _ => cases hleft

/-- A value without a place is not ordered as a number. -/
theorem numberOrder?_of_place_none {left right : Value} (h : left.place? = none ∨ right.place? = none) :
    numberOrder? left right = none := by
  rcases h with hleft | hright
  · cases left with
    | integer a => cases hleft
    | float x => cases hleft
    | _ => rfl
  · cases right with
    | integer b => cases hright
    | float y => cases hright
    | _ => cases left <;> rfl

/-- Numbers are ordered as their places on the line are, without any rounding, and other values are not ordered as
numbers. -/
theorem numberOrder?_eq_cmp (left right : Value) :
    numberOrder? left right = (do return cmp (← left.place?) (← right.place?)) := by
  cases hleft : left.place? with
  | none => exact numberOrder?_of_place_none (.inl hleft)
  | some p =>
    cases hright : right.place? with
    | none => exact numberOrder?_of_place_none (.inr hright)
    | some q => exact numberOrder?_of_place hleft hright

-- One more than 2^53 is above that float, and a fraction lies on the far side of a whole number from zero.
example : Integer.orderBinary64 9007199254740993 (.ofBits 0x4340000000000000) = .gt := by decide +kernel
example : Integer.orderBinary64 (-3) (.ofBits 0xC00C000000000000) = .gt := by decide +kernel
example : Integer.orderBinary64 Int64.minValue (.ofBits 0xC3E0000000000000) = .eq := by decide +kernel

end Operation

end StackLang
