import StackLang.Proofs.LinearAlgebra

/-!
# Transposition

The transpose of a matrix has the entries of the matrix with rows and columns exchanged. Transposing twice gives the
matrix back, and the transpose of a product is the product of the transposes in the opposite order.

This includes overflow. An entry of either product is made of the same products of numbers, added in the same order, so
all numbers on the way are in range for one of the products exactly if they are for the other.
-/

namespace StackLang

/-- The numbers on the way to a product of vectors do not depend on the order of the two. -/
theorem dotFits_comm {n : ℕ} (f g : Fin n → ℤ) : DotFits f g ↔ DotFits g f := by
  simp only [DotFits, mul_comm]

/-- Vectors that stand for the same numbers are the same. -/
theorem IntVector.Denotes.unique {a b : IntVector} {n : ℕ} {f : Fin n → ℤ} (ha : a.Denotes f) (hb : b.Denotes f) :
    a = b := by
  refine List.ext_getElem (ha.length_eq.trans hb.length_eq.symm) fun i hi hi' => ?_
  have hn : i < n := ha.length_eq ▸ hi
  have hx : a[i].toInt = f ⟨i, hn⟩ := ha.toInt_eq (List.getElem?_eq_getElem hi)
  have hy : b[i].toInt = f ⟨i, hn⟩ := hb.toInt_eq (List.getElem?_eq_getElem hi')
  exact Int64.toInt_inj.mp (hx.trans hy.symm)

namespace IntMatrix

/-- The entry in a row and a column, if there is one. -/
def entryAt (rows : IntMatrix) (i j : ℕ) : Option Integer := rows[i]?.bind fun row => row[j]?

variable {a b : IntMatrix} {m n p : ℕ} {A : Matrix (Fin m) (Fin n) ℤ}

/-- Matrices that stand for the same numbers are the same. -/
theorem Denotes.unique (ha : a.Denotes A) (hb : b.Denotes A) : a = b := by
  refine List.ext_getElem (ha.size.1.trans hb.size.1.symm) fun i hi hi' => ?_
  have hm : i < m := ha.size.1 ▸ hi
  have hrow : (a[i]).Denotes (A.row ⟨i, hm⟩) := ha.row (List.getElem?_eq_getElem hi)
  have hrow' : (b[i]).Denotes (A.row ⟨i, hm⟩) := hb.row (List.getElem?_eq_getElem hi')
  exact hrow.unique hrow'

/-- A row of a transpose is a column of the matrix. -/
theorem HasSize.getElem?_transpose (h : a.HasSize m n) (hm : 0 < m) {j : ℕ} (hj : j < n) :
    (IntMatrix.transpose a)[j]? = some (a.map fun row => row.getD j 0) := by
  have hshape : (IntMatrix.shape a).2 = n := by rw [h.shape hm]
  rw [IntMatrix.transpose_eq, hshape, List.getElem?_map, List.getElem?_range hj, Option.map_some, h.column_eq hj]

/-- Entries change places with the number of their row and column. -/
theorem HasSize.entryAt_transpose (h : a.HasSize m n) (hm : 0 < m) (i j : ℕ) :
    entryAt (IntMatrix.transpose a) j i = entryAt a i j := by
  by_cases hj : j < n
  · rw [entryAt, h.getElem?_transpose hm hj, Option.bind_some, List.getElem?_map, entryAt]
    cases hrow : a[i]? with
    | none => rfl
    | some row =>
      have hlength : j < row.length := by
        rw [h.2 row (List.mem_of_getElem? hrow)]
        exact hj
      simp [List.getElem?_eq_getElem hlength]
  · -- Beyond the columns there are no rows of the transpose, and no entries in any row of the matrix.
    have hbeyond : (IntMatrix.transpose a)[j]? = none := by
      rw [List.getElem?_eq_none_iff, (h.transpose hm).1]
      exact Nat.le_of_not_lt hj
    rw [entryAt, hbeyond, Option.bind_none, entryAt]
    cases hrow : a[i]? with
    | none => rfl
    | some row =>
      have hlength : row.length ≤ j := by
        rw [h.2 row (List.mem_of_getElem? hrow)]
        exact Nat.le_of_not_lt hj
      exact (List.getElem?_eq_none hlength).symm

/-- Transposing twice gives the matrix back. -/
theorem HasSize.transpose_transpose (h : a.HasSize m n) (hm : 0 < m) (hn : 0 < n) :
    IntMatrix.transpose (IntMatrix.transpose a) = a := by
  have hdenotes := a.denotes_numbers h
  have htwice := (hdenotes.transpose hm).transpose hn
  rw [Matrix.transpose_transpose] at htwice
  exact htwice.unique hdenotes

/-- The product of the transposes in the opposite order is the transpose of the product, or both overflow. -/
theorem HasSize.product_transpose (ha : a.HasSize m n) (hb : b.HasSize n p) (hm : 0 < m) (hn : 0 < n) :
    IntMatrix.product (IntMatrix.transpose b) (IntMatrix.transpose a) =
      (IntMatrix.product a b).map IntMatrix.transpose := by
  have hA := a.denotes_numbers ha
  have hB := b.denotes_numbers hb
  have hproduct := product_exactly hA hB hn
  have hopposite := product_exactly (hB.transpose hn) (hA.transpose hm) hn
  rw [← Matrix.transpose_mul] at hopposite
  by_cases hfits : ∀ i j, DotFits ((a.numbers m n).row i) ((b.numbers n p).col j)
  · obtain ⟨c, hc, hC⟩ := hproduct.ok hfits
    obtain ⟨c', hc', hC'⟩ := hopposite.ok fun j i => (dotFits_comm _ _).mp (hfits i j)
    rw [hc, hc', hC'.unique (hC.transpose hm)]
    rfl
  · have hfits' : ¬ ∀ j i, DotFits ((b.numbers n p).transpose.row j) ((a.numbers m n).transpose.col i) :=
      fun h => hfits fun i j => (dotFits_comm _ _).mp (h j i)
    rw [hproduct.overflow hfits, hopposite.overflow hfits']
    rfl

/-- Transposition exchanges rows and columns, undoes itself, and reverses products. It makes no difference to whether a
product overflows. -/
theorem transpose_reverses (hm : 0 < m) (hn : 0 < n) (ha : a.HasSize m n) (hb : b.HasSize n p) :
    (IntMatrix.transpose a).HasSize n m ∧
      (∀ i j, entryAt (IntMatrix.transpose a) j i = entryAt a i j) ∧
      IntMatrix.transpose (IntMatrix.transpose a) = a ∧
      product (IntMatrix.transpose b) (IntMatrix.transpose a) = (product a b).map IntMatrix.transpose :=
  ⟨ha.transpose hm, ha.entryAt_transpose hm, ha.transpose_transpose hm hn, ha.product_transpose hb hm hn⟩

/-- A row times a column overflows on the way, and so does the column's transpose times that of the row. -/
theorem transpose_reverses_overflow :
    IntMatrix.transpose [[Int64.maxValue, 1, -1]] = [[Int64.maxValue], [1], [-1]] ∧
      product [[Int64.maxValue, 1, -1]] [[1], [1], [1]] = .error .overflow ∧
      product [[1, 1, 1]] [[Int64.maxValue], [1], [-1]] = .error .overflow := by
  have hrow : IntMatrix.HasSize [[Int64.maxValue, 1, -1]] 1 3 := ⟨rfl, by simp⟩
  have hcolumn : IntMatrix.HasSize [[1], [1], [1]] 3 1 := ⟨rfl, by simp⟩
  obtain ⟨-, -, -, hproduct⟩ := transpose_reverses (by decide) (by decide) hrow hcolumn
  have hoverflow : product [[Int64.maxValue, 1, -1]] [[1], [1], [1]] = .error .overflow := rfl
  rw [hoverflow] at hproduct
  exact ⟨rfl, hoverflow, hproduct⟩

end IntMatrix

end StackLang
