import Mathlib.Algebra.Order.BigOperators.Ring.Finset
import Mathlib.Tactic.FinCases
import StackLang.Proofs.LinearAlgebra

/-!
# Powers by repeated squaring

A power is computed from squares, and the loop keeps one invariant: what has been multiplied up and the current square
are powers of the base, and their exponents, the second one taken as often as is left to do, add up to the exponent that
is asked for. So a result is the power, and no power with a larger exponent is ever computed.

For square matrices of integers this gives exact powers. A power can overflow only if it, or a power with a smaller
exponent, is out of range once all entries are replaced by their absolute values.
-/

namespace StackLang

/-! ## Computations that end alike -/

/-- Whether two computations end in the same result, which has a property, or in the same failure, which is an expected
one. -/
inductive EndsAlike {α : Type} (P : α → Prop) (E : Cause → Prop) : Except Cause α → Except Cause α → Prop where
  | ok {a : α} (h : P a) : EndsAlike P E (.ok a) (.ok a)
  | error {cause : Cause} (h : E cause) : EndsAlike P E (.error cause) (.error cause)

namespace EndsAlike

variable {α β : Type} {P : α → Prop} {Q : β → Prop} {E : Cause → Prop} {x y : Except Cause α}

/-- Computations one after the other end alike if each of them does. -/
theorem bind {f g : α → Except Cause β} (hx : EndsAlike P E x y) (hf : ∀ a, P a → EndsAlike Q E (f a) (g a)) :
    EndsAlike Q E (x >>= f) (y >>= g) := by
  cases hx with
  | ok h => exact hf _ h
  | error h => exact .error h

/-- What ends alike is the same. -/
theorem eq (h : EndsAlike P E x y) : x = y := by
  cases h with
  | ok h => rfl
  | error h => rfl

/-- A result has the property. -/
theorem of_eq_ok (h : EndsAlike P E x y) {a : α} (ha : x = .ok a) : P a := by
  cases h with
  | ok h =>
    cases ha
    exact h
  | error h => cases ha

/-- A failure is an expected one. -/
theorem of_eq_error (h : EndsAlike P E x y) {cause : Cause} (hcause : x = .error cause) : E cause := by
  cases h with
  | ok h => cases hcause
  | error h =>
    cases hcause
    exact h

/-- If overflow is the only failure and excludes a condition, and results imply it, a computation is exact. -/
theorem exactly {F : Prop} (h : EndsAlike P (fun cause => cause = .overflow ∧ ¬ F) x y) (hF : ∀ a, P a → F) :
    Exactly x F P where
  ok hcondition := by
    cases h with
    | ok h => exact ⟨_, rfl, h⟩
    | error h => exact absurd hcondition h.2
  overflow hnot := by
    cases h with
    | ok h => exact absurd (hF _ h) hnot
    | error h => rw [h.1]

end EndsAlike

/-! ## The loop -/

namespace Operation

section

variable {α : Type} {product product' : α → α → Except Cause α} {E : Cause → Prop} {e : ℕ} {result square : α}

/-- A step of the loop multiplies and squares within the exponent that is asked for, and leaves exponents that still add
up to it. -/
theorem exponents_step {r s n : ℕ} (he : r + s * n = e) :
    (n % 2 = 1 → r + s ≤ e) ∧ (n / 2 ≠ 0 → s + s ≤ e) ∧ r + s * (n % 2) + (s + s) * (n / 2) = e := by
  have hhalves : s * n = s * (n % 2) + (s + s) * (n / 2) := by
    rw [← Nat.mul_two, Nat.mul_assoc, ← Nat.mul_add, Nat.mod_add_div]
  refine ⟨fun hodd => ?_, fun hhalf => ?_, by omega⟩
  · rw [hodd] at hhalves
    omega
  · have := Nat.le_mul_of_pos_right (s + s) (Nat.pos_of_ne_zero hhalf)
    omega

/-- A power ends as the products do that it is made of. These are products of powers whose exponents add up to no more
than the exponent that is asked for, so it does not matter what any other product is. -/
theorem powerFrom_endsAlike (IsPower : ℕ → α → Prop)
    (hproduct : ∀ i j a b, i + j ≤ e → IsPower i a → IsPower j b →
      EndsAlike (IsPower (i + j)) E (product a b) (product' a b))
    {r s n : ℕ} (hresult : IsPower r result) (hsquare : IsPower s square) (he : r + s * n = e) :
    EndsAlike (IsPower e) E (powerFrom product result square n) (powerFrom product' result square n) := by
  induction n using Nat.strongRecOn generalizing result square r s with
  | ind n ih =>
    obtain ⟨hmultiply, hdouble, hrest⟩ := exponents_step he
    by_cases hn : n = 0
    · subst hn he
      rw [powerFrom, powerFrom, dif_pos rfl, dif_pos rfl]
      exact .ok hresult
    · rw [powerFrom_step product result square hn, powerFrom_step product' result square hn]
      refine EndsAlike.bind (P := IsPower (r + s * (n % 2))) ?_ fun result' hresult' => ?_
      · by_cases hodd : n % 2 = 1
        · rw [if_pos hodd, if_pos hodd, hodd, Nat.mul_one]
          exact hproduct r s result square (hmultiply hodd) hresult hsquare
        · rw [if_neg hodd, if_neg hodd, Nat.mod_two_ne_one.mp hodd]
          exact .ok hresult
      · by_cases hhalf : n / 2 = 0
        · rw [hhalf] at hrest
          rw [if_pos hhalf, if_pos hhalf]
          exact .ok (hrest ▸ hresult')
        · rw [if_neg hhalf, if_neg hhalf]
          refine (hproduct s s square square (hdouble hhalf) hsquare hsquare).bind fun square' hsquare' => ?_
          exact ih (n / 2) (by omega) hresult' hsquare' hrest

end

end Operation

/-! ## Bounds by absolute values -/

/-- A number is in range if one of at least its size is. -/
theorem Integer.fits_of_abs_le {m bound : ℤ} (h : |m| ≤ bound) (hbound : Integer.Fits bound) : Integer.Fits m := by
  have := abs_le.mp h
  rw [Integer.fits_iff] at *
  omega

open Integer (Fits)

/-- A product of vectors can be computed if the product of two vectors of at least that size is in range. -/
theorem dotFits_of_abs_le {n : ℕ} {f g F G : Fin n → ℤ} (hf : ∀ k, |f k| ≤ F k) (hg : ∀ k, |g k| ≤ G k)
    (hfits : Fits (F ⬝ᵥ G)) : DotFits f g := by
  have hproduct (k : Fin n) : |f k * g k| ≤ F k * G k := by
    rw [abs_mul]
    exact mul_le_mul (hf k) (hg k) (abs_nonneg _) ((abs_nonneg _).trans (hf k))
  have hnonneg (k : Fin n) : 0 ≤ F k * G k := (abs_nonneg _).trans (hproduct k)
  refine ⟨fun k => ?_, fun i hi => ?_⟩
  · refine Integer.fits_of_abs_le ((hproduct k).trans ?_) hfits
    exact Finset.single_le_sum (fun k _ => hnonneg k) (Finset.mem_univ k)
  · refine Integer.fits_of_abs_le ?_ hfits
    calc |∑ k : Fin i, f (k.castLE hi) * g (k.castLE hi)|
        ≤ ∑ k : Fin i, |f (k.castLE hi) * g (k.castLE hi)| := Finset.abs_sum_le_sum_abs _ _
      _ ≤ ∑ k : Fin i, F (k.castLE hi) * G (k.castLE hi) := Finset.sum_le_sum fun k _ => hproduct _
      _ = ∑ k ∈ Finset.univ.map (Fin.castLEEmb hi), F k * G k := by rw [Finset.sum_map]; rfl
      _ ≤ F ⬝ᵥ G := Finset.sum_le_sum_of_subset_of_nonneg (Finset.subset_univ _) fun k _ _ => hnonneg k

namespace IntMatrix

variable {n : ℕ} {A : Matrix (Fin n) (Fin n) ℤ}

/-- The entries of a power are bounded by those of the power of the absolute values. -/
theorem abs_pow_le (A : Matrix (Fin n) (Fin n) ℤ) (k : ℕ) (i j : Fin n) : |(A ^ k) i j| ≤ (A.map abs ^ k) i j := by
  induction k generalizing j with
  | zero =>
    rw [pow_zero, pow_zero, Matrix.one_apply]
    split <;> simp
  | succ k ih =>
    rw [pow_succ, pow_succ, Matrix.mul_apply, Matrix.mul_apply]
    calc |∑ l, (A ^ k) i l * A l j| ≤ ∑ l, |(A ^ k) i l * A l j| := Finset.abs_sum_le_sum_abs _ _
      _ ≤ ∑ l, (A.map abs ^ k) i l * A.map abs l j := Finset.sum_le_sum fun l _ => ?_
    rw [abs_mul]
    exact mul_le_mul_of_nonneg_right (ih l) (abs_nonneg _)

/-- The identity of integers stands for the identity of numbers. -/
theorem denotes_identity (n : ℕ) : (identity n).Denotes (1 : Matrix (Fin n) (Fin n) ℤ) := by
  refine denotes_of_getElem? ⟨by simp [identity], fun i row hrow => ?_⟩
  have hrow' : (List.range n).map (fun j => if i.val = j then (1 : Integer) else 0) = row := by
    simpa [identity] using hrow
  refine IntVector.denotes_of_getElem? ⟨by simp [← hrow'], fun j x hx => ?_⟩
  have hx' : (if i.val = j.val then (1 : Integer) else 0) = x := by simpa [← hrow'] using hx
  rw [← hx', Matrix.row_apply, Matrix.one_apply]
  simp only [Fin.ext_iff]
  split <;> rfl

/-- Two powers are multiplied exactly, or their product overflows and so does the power of the absolute values. -/
theorem product_powers {a b : IntMatrix} {i j k : ℕ} (hn : 0 < n) (hk : i + j ≤ k) (ha : a.Denotes (A ^ i))
    (hb : b.Denotes (A ^ j)) :
    EndsAlike (IntMatrix.Denotes · (A ^ (i + j)))
      (fun cause => cause = .overflow ∧ ∃ m ≤ k, ∃ p q, ¬ Fits ((A.map abs ^ m) p q)) (product a b) (product a b) := by
  have hexactly := product_exactly ha hb hn
  rw [← pow_add] at hexactly
  by_cases hfits : ∀ p q, DotFits ((A ^ i).row p) ((A ^ j).col q)
  · obtain ⟨c, hc, hdenotes⟩ := hexactly.ok hfits
    rw [hc]
    exact .ok hdenotes
  · rw [hexactly.overflow hfits]
    refine .error ⟨rfl, i + j, hk, ?_⟩
    by_contra hall
    refine hfits fun p q => dotFits_of_abs_le (fun l => abs_pow_le A i p l) (fun l => abs_pow_le A j l q) ?_
    have hentry : Fits ((A.map abs ^ (i + j)) p q) := by
      by_contra hnot
      exact hall ⟨p, q, hnot⟩
    rwa [pow_add, Matrix.mul_apply] at hentry

end IntMatrix

namespace Integer

/-- An exponent up to the greatest one is taken as it is. -/
theorem toExponent_of_le {e : Integer} {k : ℕ} (he : e.toInt = k) (hk : k ≤ 4294967295) : e.toExponent = .ok k := by
  have hsign : ¬ e < 0 := by
    rw [lt_zero_iff]
    omega
  have hnat : e.toInt.toNat = k := by rw [he, Int.toNat_natCast]
  rw [toExponent, if_neg hsign, hnat, if_pos]
  exact Nat.lt_succ_of_le hk

/-- A greater exponent is refused. -/
theorem toExponent_of_gt {e : Integer} {k : ℕ} (he : e.toInt = k) (hk : 4294967295 < k) :
    e.toExponent = .error .literalTooLarge := by
  have hsign : ¬ e < 0 := by
    rw [lt_zero_iff]
    omega
  have hnat : e.toInt.toNat = k := by rw [he, Int.toNat_natCast]
  rw [toExponent, if_neg hsign, hnat, if_neg]
  exact Nat.not_lt_of_le hk

end Integer

namespace Operation

variable {n : ℕ} {rows : IntMatrix}

/-- A power of a square matrix is computed by squaring. -/
theorem power_matrix (hn : 0 < n) (hrows : rows.HasSize n n) {e : Integer} {k : ℕ} (he : e.toExponent = .ok k) :
    power (.matrix rows) (.integer e) =
      (do return .matrix (← powerFrom IntMatrix.product (IntMatrix.identity n) rows k)) := by
  have hshape := hrows.shape hn
  simp only [power, hshape, he, hrows.1, if_true]
  rfl

/-- The powers of a square matrix are the exact ones, or they overflow because the absolute values do. Only powers up
to the one that is asked for are computed. -/
theorem powerFrom_matrix_endsAlike (hn : 0 < n) (hrows : rows.HasSize n n) {k : ℕ}
    {product : IntMatrix → IntMatrix → Except Cause IntMatrix}
    (hproduct : ∀ i j a b, i + j ≤ k → IntMatrix.Denotes a (rows.numbers n n ^ i) →
      IntMatrix.Denotes b (rows.numbers n n ^ j) → product a b = IntMatrix.product a b) :
    EndsAlike (IntMatrix.Denotes · (rows.numbers n n ^ k))
      (fun cause => cause = .overflow ∧ ∃ m ≤ k, ∃ i j, ¬ Fits (((rows.numbers n n).map abs ^ m) i j))
      (powerFrom IntMatrix.product (IntMatrix.identity n) rows k)
      (powerFrom product (IntMatrix.identity n) rows k) := by
  refine powerFrom_endsAlike (fun m a => IntMatrix.Denotes a (rows.numbers n n ^ m)) (r := 0) (s := 1)
    (fun i j a b hle ha hb => ?_) ?_ ?_ (by omega)
  · rw [hproduct i j a b hle ha hb]
    exact IntMatrix.product_powers hn hle ha hb
  · rw [pow_zero]
    exact IntMatrix.denotes_identity n
  · rw [pow_one]
    exact rows.denotes_numbers hrows

/-- A square matrix raised to an exponent below 2^32 is multiplied by itself as often as the exponent says. This fails
only by overflow, and not if all powers of the absolute values up to that exponent are in range: no product is formed
that is a higher power. -/
theorem power_exact (hn : 0 < n) (hrows : rows.HasSize n n) {e : Integer} {k : ℕ} (he : e.toInt = k)
    (hk : k ≤ 4294967295) :
    (∀ v, power (.matrix rows) (.integer e) = .ok v → v.IsMatrix (rows.numbers n n ^ k)) ∧
      (∀ cause, power (.matrix rows) (.integer e) = .error cause → cause = .overflow) ∧
      ((∀ m ≤ k, ∀ i j, Fits (((rows.numbers n n).map abs ^ m) i j)) →
        ∃ v, power (.matrix rows) (.integer e) = .ok v) ∧
      ∀ product : IntMatrix → IntMatrix → Except Cause IntMatrix,
        (∀ i j a b, i + j ≤ k → IntMatrix.Denotes a (rows.numbers n n ^ i) →
          IntMatrix.Denotes b (rows.numbers n n ^ j) → product a b = IntMatrix.product a b) →
        power (.matrix rows) (.integer e) =
          (do return .matrix (← powerFrom product (IntMatrix.identity n) rows k)) := by
  have hpower := power_matrix hn hrows (Integer.toExponent_of_le he hk)
  have hends := (powerFrom_matrix_endsAlike (k := k) hn hrows fun _ _ _ _ _ _ _ => rfl).bind
    (Q := Value.IsMatrix (rows.numbers n n ^ k)) fun rows' hrows' => .ok ⟨rows', rfl, hrows'⟩
  refine ⟨fun v hv => ?_, fun cause hcause => ?_, fun hfits => ?_, fun product hproduct => ?_⟩
  · exact hends.of_eq_ok (hpower.symm.trans hv)
  · exact (hends.of_eq_error (hpower.symm.trans hcause)).1
  · cases hx : power (.matrix rows) (.integer e) with
    | ok v => exact ⟨v, rfl⟩
    | error cause =>
      obtain ⟨-, m, hm, i, j, hnot⟩ := hends.of_eq_error (hpower.symm.trans hx)
      exact absurd (hfits m hm i j) hnot
  · rw [hpower, (powerFrom_matrix_endsAlike hn hrows hproduct).eq]

/-- A quarter turn can be repeated as often as the greatest exponent says. -/
theorem power_exact_quarter_turn :
    ∃ v, power (.matrix [[0, -1], [1, 0]]) (.integer 4294967295) = .ok v ∧
      v.IsMatrix (IntMatrix.numbers 2 2 [[0, -1], [1, 0]] ^ 4294967295) := by
  have hsize : IntMatrix.HasSize [[0, -1], [1, 0]] 2 2 := ⟨rfl, by decide⟩
  -- Without signs the turn exchanges two entries, so its powers alternate between two matrices.
  have hswap : (IntMatrix.numbers 2 2 [[0, -1], [1, 0]]).map abs ^ 2 = 1 := by
    rw [pow_two]
    ext i j
    fin_cases i <;> fin_cases j <;> decide
  have hfits (m : ℕ) (i j : Fin 2) : Fits (((IntMatrix.numbers 2 2 [[0, -1], [1, 0]]).map abs ^ m) i j) := by
    unfold Fits
    rw [pow_eq_pow_mod m hswap]
    rcases Nat.mod_two_eq_zero_or_one m with h | h
    · rw [h, pow_zero]
      fin_cases i <;> fin_cases j <;> decide
    · rw [h, pow_one]
      fin_cases i <;> fin_cases j <;> decide
  obtain ⟨hexact, -, hok, -⟩ := power_exact (e := 4294967295) (by decide) hsize (k := 4294967295) rfl (by decide)
  obtain ⟨v, hv⟩ := hok fun m _ => hfits m
  exact ⟨v, hv, hexact v hv⟩

end Operation

end StackLang
