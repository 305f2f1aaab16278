import StackLang.Proofs.Ordinary

/-!
# Exact arithmetic on integers

Sums, differences, products and quotients are those of the whole numbers whenever these are in range, and overflow
otherwise. A quotient is rounded towards minus infinity and is out of range in one case only, that of the least integer
divided by -1.

A computation is compared with what it has to give by `Exactly`: it has a result exactly when some condition holds, the
result is the right one, and it overflows whenever the condition does not hold.
-/

namespace StackLang

/-! ## Computations that give the right result or overflow -/

/-- Whether a computation has a result with a property if a condition holds, and overflows if it does not. -/
structure Exactly {α : Type} (x : Except Cause α) (condition : Prop) (Is : α → Prop) : Prop where
  ok : condition → ∃ a, x = .ok a ∧ Is a
  overflow : ¬ condition → x = .error .overflow

namespace Exactly

variable {α β : Type} {x : Except Cause α} {F G : Prop} {P : α → Prop} {Q : β → Prop}

/-- A result is there unconditionally. -/
theorem of_ok {a : α} (h : P a) (hF : F) : Exactly (.ok a) F P where
  ok _ := ⟨a, rfl, h⟩
  overflow hnot := absurd hF hnot

/-- The condition may be put in other words. -/
theorem congr (h : Exactly x F P) (hiff : F ↔ G) : Exactly x G P where
  ok hG := h.ok (hiff.mpr hG)
  overflow hnot := h.overflow (mt hiff.mp hnot)

/-- Of the result less may be said. -/
theorem mono {P' : α → Prop} (h : Exactly x F P) (hP : ∀ a, P a → P' a) : Exactly x F P' where
  ok hF := (h.ok hF).imp fun a ha => ⟨ha.1, hP a ha.2⟩
  overflow := h.overflow

/-- A result that is there has the property. -/
theorem of_eq_ok (h : Exactly x F P) {a : α} (ha : x = .ok a) : P a := by
  by_cases hF : F
  · obtain ⟨a', ha', hP⟩ := h.ok hF
    cases ha.symm.trans ha'
    exact hP
  · cases ha.symm.trans (h.overflow hF)

/-- Both computations have to give their results. -/
theorem bind {f : α → Except Cause β} (hx : Exactly x F P) (hf : ∀ a, P a → Exactly (f a) G Q) :
    Exactly (x >>= f) (F ∧ G) Q where
  ok h := by
    obtain ⟨a, rfl, ha⟩ := hx.ok h.1
    exact (hf a ha).ok h.2
  overflow hnot := by
    by_cases hF : F
    · obtain ⟨a, rfl, ha⟩ := hx.ok hF
      exact (hf a ha).overflow fun hG => hnot ⟨hF, hG⟩
    · rw [hx.overflow hF]
      rfl

/-- A result can be turned into another one. -/
theorem map {g : α → β} (hx : Exactly x F P) (hg : ∀ a, P a → Q (g a)) : Exactly (do return g (← x)) F Q :=
  (hx.bind fun a ha => of_ok (hg a ha) trivial).congr (and_iff_left trivial)

/-- Computations on the elements of a list give a list of the same length, position by position. -/
theorem mapM {as : List α} {f : α → Except Cause β} {F : Nat → Prop} {Q : Nat → β → Prop}
    (h : ∀ i a, as[i]? = some a → Exactly (f a) (F i) (Q i)) :
    Exactly (as.mapM f) (∀ i < as.length, F i)
      (fun bs => bs.length = as.length ∧ ∀ i b, bs[i]? = some b → Q i b) := by
  induction as generalizing F Q with
  | nil => exact of_ok ⟨rfl, nofun⟩ nofun
  | cons a as ih =>
    have hfirst : Exactly (f a) (F 0) (Q 0) := h 0 a rfl
    have hrest := ih (F := fun i => F (i + 1)) (Q := fun i => Q (i + 1)) fun i a' ha' => h (i + 1) a' ha'
    rw [List.mapM_cons]
    refine (hfirst.bind fun b hb => hrest.map fun bs hbs => ?_).congr Nat.forall_lt_succ_left.symm
    refine ⟨by rw [List.length_cons, hbs.1, List.length_cons], fun i c hc => ?_⟩
    cases i with
    | zero =>
      cases hc
      exact hb
    | succ i => exact hbs.2 i c hc

end Exactly

/-! ## Integers -/

namespace Integer

/-- Whether a whole number is in the range of integers. -/
def Fits (n : Int) : Prop := Int64.minValue.toInt ≤ n ∧ n ≤ Int64.maxValue.toInt

instance (n : Int) : Decidable (Fits n) := inferInstanceAs (Decidable (_ ∧ _))

/-- The value of an integer is in range. -/
theorem fits_toInt (a : Integer) : Fits a.toInt := by
  have := a.toInt_lt
  have := a.le_toInt
  rw [Fits, Int64.toInt_minValue, Int64.toInt_maxValue]
  omega

/-- The range in numbers. -/
theorem fits_iff {n : Int} : Fits n ↔ -9223372036854775808 ≤ n ∧ n ≤ 9223372036854775807 := by
  rw [Fits, Int64.toInt_minValue, Int64.toInt_maxValue]
  omega

/-- The sign of an integer is that of its value. -/
theorem lt_zero_iff (a : Integer) : a < 0 ↔ a.toInt < 0 := Int64.lt_iff_toInt_lt

/-- An integer other than zero has a value other than zero. -/
theorem toInt_ne_zero {a : Integer} (h : a ≠ 0) : a.toInt ≠ 0 := by
  simpa [← Int64.toInt_inj] using h

/-- An operation that checks its range gives an exact result or overflows. -/
theorem exactly_checked {overflows : Bool} {c : Integer} {n : Int} (hrange : overflows = false ↔ Fits n)
    (hc : overflows = false → c.toInt = n) :
    Exactly (orOverflow (if overflows then none else some c)) (Fits n) (·.toInt = n) := by
  cases overflows with
  | false => exact .of_ok (hc rfl) (hrange.mp rfl)
  | true =>
    have hnot : ¬ Fits n := fun h => Bool.noConfusion (hrange.mpr h)
    exact ⟨fun h => absurd h hnot, fun _ => rfl⟩

variable (a b : Integer)

/-- Sums are exact. -/
theorem sum_exactly : Exactly (a.sum b) (Fits (a.toInt + b.toInt)) (·.toInt = a.toInt + b.toInt) := by
  refine exactly_checked ?_ fun h => ?_
  · simp only [BitVec.saddOverflow, Int64.toInt_toBitVec, Bool.or_eq_false_iff, decide_eq_false_iff_not, fits_iff]
    omega
  · rw [← Int64.toInt_toBitVec, Int64.toBitVec_add, BitVec.toInt_add_of_not_saddOverflow (by simp [h])]
    rfl

/-- Differences are exact. -/
theorem difference_exactly :
    Exactly (a.difference b) (Fits (a.toInt - b.toInt)) (·.toInt = a.toInt - b.toInt) := by
  refine exactly_checked ?_ fun h => ?_
  · simp only [BitVec.ssubOverflow, Int64.toInt_toBitVec, Bool.or_eq_false_iff, decide_eq_false_iff_not, fits_iff]
    omega
  · rw [← Int64.toInt_toBitVec, Int64.toBitVec_sub, BitVec.toInt_sub_of_not_ssubOverflow (by simp [h])]
    rfl

/-- Products are exact. -/
theorem product_exactly :
    Exactly (a.product b) (Fits (a.toInt * b.toInt)) (·.toInt = a.toInt * b.toInt) := by
  refine exactly_checked ?_ fun h => ?_
  · simp only [BitVec.smulOverflow, Int64.toInt_toBitVec, Bool.or_eq_false_iff, decide_eq_false_iff_not, fits_iff]
    omega
  · rw [← Int64.toInt_toBitVec, Int64.toBitVec_mul, BitVec.toInt_mul_of_not_smulOverflow (by simp [h])]
    rfl

variable {a b}

/-- The quotient rounded towards minus infinity is one less than the one rounded towards zero if a remainder is left and
the signs differ, and the same otherwise. -/
theorem fdiv_eq_tdiv_sub {m n : Int} (hn : n ≠ 0) :
    m.fdiv n = if m.tmod n ≠ 0 ∧ ((m < 0) ≠ (n < 0)) then m.tdiv n - 1 else m.tdiv n := by
  rw [Int.fdiv_eq_tdiv]
  by_cases hremainder : m.tmod n = 0
  · rw [if_pos (Int.dvd_of_tmod_eq_zero hremainder), if_neg (fun h => h.1 hremainder), Int.sub_zero]
  · rw [if_neg (mt Int.tmod_eq_zero_of_dvd hremainder)]
    rcases Int.lt_or_gt_of_ne hn with hneg | hpos
    · have hsign := Int.sign_eq_neg_one_of_neg hneg
      grind
    · have hsign := Int.sign_eq_one_of_pos hpos
      grind

/-- The quotient towards zero overflows in one case only. -/
theorem not_sdivOverflow (h : ¬ (a = Int64.minValue ∧ b = -1)) : a.toBitVec.sdivOverflow b.toBitVec = false := by
  rw [BitVec.sdivOverflow_eq]
  simp only [Bool.and_eq_false_iff, decide_eq_false_iff_not]
  by_cases hb : b = -1
  · exact .inl (.inr fun ha => h ⟨Int64.toBitVec_inj.mp ha, hb⟩)
  · exact .inr fun hones => hb (Int64.toBitVec_inj.mp hones)

/-- Apart from that case it is the quotient of the numbers. -/
theorem toInt_div (h : ¬ (a = Int64.minValue ∧ b = -1)) : (a / b).toInt = a.toInt.tdiv b.toInt := by
  by_cases hb : b = -1
  · exact Int64.toInt_div_of_ne_left a b fun ha => h ⟨ha, hb⟩
  · exact Int64.toInt_div_of_ne_right a b hb

/-- Apart from that case there is a remainder of the quotient towards zero. -/
theorem rem?_eq_some (hb : b ≠ 0) (h : ¬ (a = Int64.minValue ∧ b = -1)) : a.rem? b = some (a % b) := by
  simp [rem?, hb, not_sdivOverflow h]

/-- Division by anything but zero is exact, except that the least integer divided by -1 overflows. -/
theorem floorDiv_exactly (hb : b ≠ 0) :
    Exactly (a.floorDiv b) (¬ (a = Int64.minValue ∧ b = -1)) (·.toInt = a.toInt.fdiv b.toInt) := by
  by_cases hleast : a = Int64.minValue ∧ b = -1
  · obtain ⟨rfl, rfl⟩ := hleast
    exact ⟨fun h => absurd ⟨rfl, rfl⟩ h, fun _ => rfl⟩
  · have hquotient : a.quot? b = some (a / b) := by simp [quot?, hb, not_sdivOverflow hleast]
    have hremainder := rem?_eq_some hb hleast
    have hfloor := fdiv_eq_tdiv_sub (m := a.toInt) (toInt_ne_zero hb)
    rw [← toInt_div hleast, ← Int64.toInt_mod] at hfloor
    have hround : (a % b ≠ 0 ∧ ((a < 0) ≠ (b < 0))) ↔
        (a % b).toInt ≠ 0 ∧ ((a.toInt < 0) ≠ (b.toInt < 0)) := by
      simp [← Int64.toInt_inj, Int64.lt_iff_toInt_lt]
    rw [floorDiv, if_neg hb, hquotient, hremainder]
    change Exactly (if a % b ≠ 0 ∧ ((a < 0) ≠ (b < 0)) then orDefect .unexpectedOverflow ((a / b).sub? 1)
      else .ok (a / b)) _ _
    by_cases h : a % b ≠ 0 ∧ ((a < 0) ≠ (b < 0))
    · obtain ⟨quotient, hless⟩ := Option.isSome_iff_exists.mp (isSome_sub?_one hb h.1)
      have hdifference : (a / b).difference 1 = .ok quotient := by rw [difference, hless, orOverflow]
      have hvalue : quotient.toInt = (a / b).toInt - 1 := ((a / b).difference_exactly 1).of_eq_ok hdifference
      rw [if_pos h, hless]
      exact .of_ok (by rw [hvalue, hfloor, if_pos (hround.mp h)]) hleast
    · rw [if_neg h]
      exact .of_ok (by rw [hfloor, if_neg (mt hround.mpr h)]) hleast

end Integer

end StackLang
