import Mathlib.Algebra.BigOperators.Fin
import Mathlib.Data.Matrix.Mul
import StackLang.Proofs.ExactIntegers
import StackLang.Proofs.Shape

/-!
# Exact linear algebra

Vectors and matrices of integers stand for vectors and matrices of whole numbers. The operators of linear algebra
compute with them as matrices are computed with: sums, differences, multiples and products are those of the matrices,
and quotients are rounded towards minus infinity. They have a result exactly when all numbers that they compute on the
way are in range. For a product these are the products of the entries and all partial sums from the left, so a product
may overflow although it is in range itself.
-/

namespace StackLang

open Integer (Fits)

/-- Computations on the elements of a list of a given length, position by position. -/
theorem Exactly.mapM_fin {α β : Type} {as : List α} {f : α → Except Cause β} {n : ℕ} {F : Fin n → Prop}
    {Q : Fin n → β → Prop} (hlength : as.length = n)
    (h : ∀ (i : Fin n) a, as[i.val]? = some a → Exactly (f a) (F i) (Q i)) :
    Exactly (as.mapM f) (∀ i, F i)
      (fun bs => bs.length = n ∧ ∀ (i : Fin n) b, bs[i.val]? = some b → Q i b) := by
  have hall : Exactly (as.mapM f) (∀ i < as.length, ∀ hi : i < n, F ⟨i, hi⟩)
      (fun bs => bs.length = as.length ∧ ∀ i b, bs[i]? = some b → ∀ hi : i < n, Q ⟨i, hi⟩ b) := by
    refine Exactly.mapM fun i a ha => ?_
    have hi : i < n := by
      rw [← hlength]
      exact (List.getElem?_eq_some_iff.mp ha).1
    exact ((h ⟨i, hi⟩ a ha).mono fun b hb _ => hb).congr ⟨fun hF _ => hF, fun hF => hF hi⟩
  refine (hall.mono fun bs hbs => ⟨hbs.1.trans hlength, fun i b hb => hbs.2 i b hb i.isLt⟩).congr ?_
  rw [hlength]
  exact ⟨fun hF i => hF i i.isLt i.isLt, fun hF i hi _ => hF ⟨i, hi⟩⟩

/-! ## Vectors and matrices of numbers -/

namespace IntVector

/-- The number at a position of a vector. -/
def number (a : IntVector) (i : ℕ) : ℤ := (a.getD i 0).toInt

/-- The numbers of a vector of length `n`. -/
def numbers (n : ℕ) (a : IntVector) : Fin n → ℤ := fun i => a.number i

/-- Whether a vector stands for a vector of numbers. -/
structure Denotes {n : ℕ} (a : IntVector) (f : Fin n → ℤ) : Prop where
  length_eq : a.length = n
  numbers_eq : a.numbers n = f

variable {a b : IntVector} {n : ℕ} {f g : Fin n → ℤ}

/-- A vector stands for its numbers. -/
theorem denotes_numbers (h : a.length = n) : a.Denotes (a.numbers n) := ⟨h, rfl⟩

/-- The number at a position is the value of the entry there. -/
theorem number_of_getElem? {i : ℕ} {x : Integer} (h : a[i]? = some x) : a.number i = x.toInt := by
  rw [number, List.getD_eq_getElem?_getD, h, Option.getD_some]

/-- The entries of a vector are its numbers. -/
theorem Denotes.toInt_eq (h : a.Denotes f) {i : Fin n} {x : Integer} (hx : a[i.val]? = some x) : x.toInt = f i := by
  rw [← h.numbers_eq]
  exact (number_of_getElem? hx).symm

/-- A vector is given by its entries. -/
theorem denotes_of_getElem? (h : a.length = n ∧ ∀ (i : Fin n) x, a[i.val]? = some x → x.toInt = f i) :
    a.Denotes f where
  length_eq := h.1
  numbers_eq := by
    funext i
    have hi : i.val < a.length := by rw [h.1]; exact i.isLt
    have hx : a[i.val]? = some a[i.val] := List.getElem?_eq_getElem hi
    exact (number_of_getElem? hx).trans (h.2 i _ hx)

/-- A vector that is computed entry by entry. -/
theorem exactly_mapM {α : Type} {as : List α} {e : α → Except Cause Integer} {F : Fin n → Prop}
    (hlength : as.length = n) (h : ∀ (i : Fin n) x, as[i.val]? = some x → Exactly (e x) (F i) (·.toInt = f i)) :
    Exactly (as.mapM e) (∀ i, F i) (IntVector.Denotes · f) :=
  (Exactly.mapM_fin hlength h).mono fun _ => denotes_of_getElem?

end IntVector

namespace IntMatrix

/-- The numbers of a matrix with `m` rows and `n` columns. -/
def numbers (m n : ℕ) (rows : IntMatrix) : Matrix (Fin m) (Fin n) ℤ :=
  Matrix.of fun i j => IntVector.number (rows.getD i []) j

/-- Whether a matrix stands for a matrix of numbers. -/
structure Denotes {m n : ℕ} (rows : IntMatrix) (A : Matrix (Fin m) (Fin n) ℤ) : Prop where
  size : rows.HasSize m n
  numbers_eq : rows.numbers m n = A

variable {rows : IntMatrix} {m n : ℕ} {A : Matrix (Fin m) (Fin n) ℤ}

/-- A matrix stands for its numbers. -/
theorem denotes_numbers (h : rows.HasSize m n) : rows.Denotes (rows.numbers m n) := ⟨h, rfl⟩

/-- The numbers in a row of a matrix. -/
theorem row_numbers {i : Fin m} {row : IntVector} (h : rows[i.val]? = some row) (n : ℕ) :
    (rows.numbers m n).row i = row.numbers n := by
  funext j
  rw [Matrix.row_apply, numbers, Matrix.of_apply, List.getD_eq_getElem?_getD, h, Option.getD_some, IntVector.numbers]

/-- The rows of a matrix stand for the rows of its numbers. -/
theorem Denotes.row (h : rows.Denotes A) {i : Fin m} {row : IntVector} (hrow : rows[i.val]? = some row) :
    row.Denotes (A.row i) where
  length_eq := h.size.2 row (List.mem_of_getElem? hrow)
  numbers_eq := by rw [← h.numbers_eq, row_numbers hrow]

/-- A matrix is given by its rows. -/
theorem denotes_of_getElem?
    (h : rows.length = m ∧ ∀ (i : Fin m) row, rows[i.val]? = some row → row.Denotes (A.row i)) : rows.Denotes A where
  size := by
    refine ⟨h.1, fun row hrow => ?_⟩
    obtain ⟨i, hi⟩ := List.mem_iff_getElem?.mp hrow
    have hlt : i < m := by
      rw [← h.1]
      exact (List.getElem?_eq_some_iff.mp hi).1
    exact (h.2 ⟨i, hlt⟩ row hi).length_eq
  numbers_eq := by
    ext i j
    have hi : i.val < rows.length := by rw [h.1]; exact i.isLt
    have hrow : rows[i.val]? = some rows[i.val] := List.getElem?_eq_getElem hi
    have hnumbers := (row_numbers hrow n).trans (h.2 i _ hrow).numbers_eq
    exact congrFun hnumbers j

/-- A matrix that is computed row by row. -/
theorem exactly_mapM {α : Type} {as : List α} {e : α → Except Cause IntVector} {F : Fin m → Prop}
    (hlength : as.length = m)
    (h : ∀ (i : Fin m) x, as[i.val]? = some x → Exactly (e x) (F i) (IntVector.Denotes · (A.row i))) :
    Exactly (as.mapM e) (∀ i, F i) (IntMatrix.Denotes · A) :=
  (Exactly.mapM_fin hlength h).mono fun _ => denotes_of_getElem?

end IntMatrix

/-! ## Products -/

/-- Whether the products of two vectors' entries and all sums of the first of these products are in range. -/
def DotFits {n : ℕ} (f g : Fin n → ℤ) : Prop :=
  (∀ k, Fits (f k * g k)) ∧ ∀ i (h : i ≤ n), Fits (∑ k : Fin i, f (k.castLE h) * g (k.castLE h))

/-- Adding a product to a total is exact if both the product and the sum are in range. -/
theorem Integer.addProduct_exactly (total x y : Integer) :
    Exactly (do total.sum (← x.product y)) (Fits (x.toInt * y.toInt) ∧ Fits (total.toInt + x.toInt * y.toInt))
      (·.toInt = total.toInt + x.toInt * y.toInt) := by
  refine (x.product_exactly y).bind fun c hc => ?_
  rw [← hc]
  exact total.sum_exactly c

/-- Adding products from left to right to a total. All products and all totals on the way have to be in range. -/
theorem IntVector.foldlM_exactly {pairs : List (Integer × Integer)} {p : ℕ → ℤ}
    (hp : ∀ k x y, pairs[k]? = some (x, y) → x.toInt * y.toInt = p k) (total : Integer) :
    Exactly (pairs.foldlM (fun total (x, y) => do total.sum (← x.product y)) total)
      ((∀ k < pairs.length, Fits (p k)) ∧ ∀ i ≤ pairs.length, Fits (total.toInt + ∑ k ∈ Finset.range i, p k))
      (·.toInt = total.toInt + ∑ k ∈ Finset.range pairs.length, p k) := by
  induction pairs generalizing p total with
  | nil =>
    refine .of_ok (by simp) ⟨nofun, fun i hi => ?_⟩
    obtain rfl : i = 0 := Nat.le_zero.mp hi
    simpa using total.fits_toInt
  | cons pair pairs ih =>
    obtain ⟨x, y⟩ := pair
    have hstep := Integer.addProduct_exactly total x y
    rw [hp 0 x y rfl] at hstep
    have hsum (i : ℕ) : total.toInt + p 0 + ∑ k ∈ Finset.range i, p (k + 1) =
        total.toInt + ∑ k ∈ Finset.range (i + 1), p k := by
      rw [Finset.sum_range_succ']
      ring
    rw [List.foldlM_cons]
    refine (hstep.bind (G := (∀ k < pairs.length, Fits (p (k + 1))) ∧
      ∀ i ≤ pairs.length, Fits (total.toInt + ∑ k ∈ Finset.range (i + 1), p k)) fun total' htotal' => ?_).congr ?_
    · have hrest := ih (p := fun k => p (k + 1)) (fun k x y hk => hp (k + 1) x y hk) total'
      simp only [htotal', hsum] at hrest
      exact hrest
    · -- The total itself is in range, and the sum of one product is the first one that has to be.
      have hfirst : total.toInt + p 0 = total.toInt + ∑ k ∈ Finset.range (0 + 1), p k := by simp
      rw [List.length_cons, Nat.forall_lt_succ_left, hfirst]
      constructor
      · rintro ⟨⟨hzero, -⟩, hproducts, hsums⟩
        refine ⟨⟨hzero, hproducts⟩, fun i hi => ?_⟩
        cases i with
        | zero => simpa using total.fits_toInt
        | succ i => exact hsums i (Nat.le_of_succ_le_succ hi)
      · rintro ⟨⟨hzero, hproducts⟩, hsums⟩
        have hlater (i : ℕ) (hi : i ≤ pairs.length) := hsums (i + 1) (Nat.succ_le_succ hi)
        exact ⟨⟨hzero, hlater 0 (Nat.zero_le _)⟩, hproducts, hlater⟩

namespace IntVector

variable {n : ℕ} {a b : IntVector} {f g : Fin n → ℤ}

/-- The product of two vectors is exact. -/
theorem dot_exactly (ha : a.Denotes f) (hb : b.Denotes g) :
    Exactly (dot a b) (DotFits f g) (·.toInt = f ⬝ᵥ g) := by
  obtain ⟨hlength, rfl⟩ := ha
  obtain ⟨hlength', rfl⟩ := hb
  have hpairs : (a.zip b).length = n := by rw [List.length_zip, hlength, hlength', Nat.min_self]
  have hsum (i : ℕ) : ∑ k ∈ Finset.range i, a.number k * b.number k = ∑ k : Fin i, a.number k * b.number k :=
    Finset.sum_range _
  have hproducts (k : ℕ) (x y : Integer) (hk : (a.zip b)[k]? = some (x, y)) :
      x.toInt * y.toInt = a.number k * b.number k := by
    obtain ⟨hx, hy⟩ := List.getElem?_zip_eq_some.mp hk
    rw [number_of_getElem? hx, number_of_getElem? hy]
  have hfold := foldlM_exactly hproducts 0
  rw [hpairs] at hfold
  simp only [Int64.toInt_zero, zero_add, hsum] at hfold
  exact hfold.congr ⟨fun h => ⟨fun k => h.1 k k.isLt, h.2⟩, fun h => ⟨fun k hk => h.1 ⟨k, hk⟩, h.2⟩⟩

/-- Operations on corresponding entries are exact together. -/
theorem zip_exactly {e : Integer → Integer → Except Cause Integer} {op : ℤ → ℤ → ℤ}
    (he : ∀ x y, Exactly (e x y) (Fits (op x.toInt y.toInt)) (·.toInt = op x.toInt y.toInt))
    (ha : a.Denotes f) (hb : b.Denotes g) :
    Exactly ((a.zip b).mapM fun (x, y) => e x y) (∀ i, Fits (op (f i) (g i)))
      (IntVector.Denotes · fun i => op (f i) (g i)) := by
  refine exactly_mapM (by rw [List.length_zip, ha.length_eq, hb.length_eq, Nat.min_self]) fun i pair hpair => ?_
  obtain ⟨hx, hy⟩ := List.getElem?_zip_eq_some.mp hpair
  rw [← ha.toInt_eq hx, ← hb.toInt_eq hy]
  exact he pair.1 pair.2

end IntVector

namespace IntMatrix

variable {m n p : ℕ} {a b : IntMatrix} {A : Matrix (Fin m) (Fin n) ℤ}

/-- A column holds the entries of the rows at a position. -/
theorem HasSize.column_eq (h : a.HasSize m n) {j : ℕ} (hj : j < n) :
    (a.filterMap fun row => row[j]?) = a.map fun row => row.getD j 0 := by
  rw [← List.filterMap_eq_map]
  refine List.filterMap_congr fun row hrow => ?_
  have hlt : j < row.length := by rw [h.2 row hrow]; exact hj
  simp [List.getElem?_eq_getElem hlt]

/-- The rows of a transpose stand for the columns of the matrix. -/
theorem Denotes.transpose (h : a.Denotes A) (hm : 0 < m) : (IntMatrix.transpose a).Denotes A.transpose := by
  refine denotes_of_getElem? ⟨(h.size.transpose hm).1, fun j column hcolumn => ?_⟩
  have hshape : (IntMatrix.shape a).2 = n := by rw [h.size.shape hm]
  have hcolumn' : (a.map fun row => row.getD j 0) = column := by
    rw [IntMatrix.transpose_eq, hshape] at hcolumn
    simpa [h.size.column_eq j.isLt] using hcolumn
  refine IntVector.denotes_of_getElem? ⟨?_, fun i x hx => ?_⟩
  · rw [← hcolumn', List.length_map, h.size.1]
  · rw [← hcolumn', List.getElem?_map] at hx
    obtain ⟨row, hrow, rfl⟩ := Option.map_eq_some_iff.mp hx
    exact congrFun (h.row hrow).numbers_eq j

/-- The product of two matrices is exact. -/
theorem product_exactly {B : Matrix (Fin n) (Fin p) ℤ} (ha : a.Denotes A) (hb : b.Denotes B) (hn : 0 < n) :
    Exactly (product a b) (∀ i j, DotFits (A.row i) (B.col j)) (IntMatrix.Denotes · (A * B)) := by
  have hcolumns := hb.transpose hn
  refine exactly_mapM ha.size.1 fun i row hrow => ?_
  refine IntVector.exactly_mapM hcolumns.size.1 fun j column hcolumn => ?_
  exact IntVector.dot_exactly (ha.row hrow) (hcolumns.row hcolumn)

end IntMatrix

/-! ## Operations -/

namespace Operation

section

variable {n : ℕ} {a b : IntVector} {f g : Fin n → ℤ} {k : Integer}

/-- Sums of vectors are exact. -/
theorem entrywise_add_exactly (ha : a.Denotes f) (hb : b.Denotes g) :
    Exactly (entrywise .add a b) (∀ i, Fits (f i + g i)) (IntVector.Denotes · (f + g)) :=
  IntVector.zip_exactly Integer.sum_exactly ha hb

/-- Differences of vectors are exact. -/
theorem entrywise_sub_exactly (ha : a.Denotes f) (hb : b.Denotes g) :
    Exactly (entrywise .sub a b) (∀ i, Fits (f i - g i)) (IntVector.Denotes · (f - g)) :=
  IntVector.zip_exactly Integer.difference_exactly ha hb

/-- Multiples of a vector are exact. -/
theorem scale_exactly (ha : a.Denotes f) (k : Integer) :
    Exactly (scale a k) (∀ i, Fits (f i * k.toInt)) (IntVector.Denotes · (k.toInt • f)) := by
  refine IntVector.exactly_mapM ha.length_eq fun i x hx => ?_
  rw [← ha.toInt_eq hx, Pi.smul_apply, smul_eq_mul, mul_comm k.toInt, ← ha.toInt_eq hx]
  exact x.product_exactly k

/-- Quotients of a vector by anything but zero are exact. -/
theorem divide_exactly (ha : a.Denotes f) (hk : k ≠ 0) :
    Exactly (divide a k) (∀ i, ¬ (f i = Int64.minValue.toInt ∧ k = -1))
      (IntVector.Denotes · fun i => (f i).fdiv k.toInt) := by
  refine IntVector.exactly_mapM ha.length_eq fun i x hx => ?_
  rw [← ha.toInt_eq hx, Int64.toInt_inj]
  exact Integer.floorDiv_exactly hk

/-- A vector with entries cannot be divided by zero. -/
theorem divide_zero (h : a ≠ []) : divide a 0 = .error .divisionByZero := by
  obtain ⟨x, rest, rfl⟩ := List.exists_cons_of_ne_nil h
  rw [divide, List.mapM_cons]
  rfl

end

section

variable {m n : ℕ} {a b : IntMatrix} {A B : Matrix (Fin m) (Fin n) ℤ}

/-- Sums or differences of matrices are exact if those of vectors are. -/
theorem rowwise_exactly {op : BinaryOp} {f : ℤ → ℤ → ℤ}
    (hop : ∀ (x y : IntVector) (g h : Fin n → ℤ), x.Denotes g → y.Denotes h →
      Exactly (entrywise op x y) (∀ j, Fits (f (g j) (h j))) (IntVector.Denotes · fun j => f (g j) (h j)))
    (ha : a.Denotes A) (hb : b.Denotes B) :
    Exactly (rowwise op a b) (∀ i j, Fits (f (A i j) (B i j)))
      (IntMatrix.Denotes · (Matrix.of fun i j => f (A i j) (B i j))) := by
  have hlength : (a.zip b).length = m := by rw [List.length_zip, ha.size.1, hb.size.1, Nat.min_self]
  refine IntMatrix.exactly_mapM hlength fun i pair hpair => ?_
  obtain ⟨hx, hy⟩ := List.getElem?_zip_eq_some.mp hpair
  exact hop pair.1 pair.2 (A.row i) (B.row i) (ha.row hx) (hb.row hy)

/-- Multiples of a matrix are exact. -/
theorem mapM_scale_exactly (ha : a.Denotes A) (k : Integer) :
    Exactly (a.mapM fun row => scale row k) (∀ i j, Fits (A i j * k.toInt)) (IntMatrix.Denotes · (k.toInt • A)) :=
  IntMatrix.exactly_mapM ha.size.1 fun _ _ hrow => scale_exactly (ha.row hrow) k

/-- Quotients of a matrix by anything but zero are exact. -/
theorem mapM_divide_exactly (ha : a.Denotes A) {k : Integer} (hk : k ≠ 0) :
    Exactly (a.mapM fun row => divide row k) (∀ i j, ¬ (A i j = Int64.minValue.toInt ∧ k = -1))
      (IntMatrix.Denotes · (A.map fun x => x.fdiv k.toInt)) :=
  IntMatrix.exactly_mapM ha.size.1 fun _ _ hrow => divide_exactly (ha.row hrow) hk

/-- A matrix with entries cannot be divided by zero. -/
theorem mapM_divide_zero (h : a.HasSize m n) (hm : 0 < m) (hn : 0 < n) :
    (a.mapM fun row => divide row 0) = .error .divisionByZero := by
  cases a with
  | nil => exact absurd h.1 (Nat.ne_of_lt hm)
  | cons row rows =>
    have hrow : row ≠ [] := by
      rintro rfl
      exact absurd (h.2 [] List.mem_cons_self) (Nat.ne_of_lt hn)
    rw [List.mapM_cons, divide_zero hrow]
    rfl

end

end Operation

/-! ## The operators -/

namespace Value

/-- Whether a value is an integer with a given value. -/
def IsInteger (k : ℤ) (v : Value) : Prop := ∃ c : Integer, v = .integer c ∧ c.toInt = k

/-- Whether a value is a vector of given numbers. -/
def IsVector {n : ℕ} (f : Fin n → ℤ) (v : Value) : Prop := ∃ c : IntVector, v = .vector c ∧ c.Denotes f

/-- Whether a value is a matrix of given numbers. -/
def IsMatrix {m n : ℕ} (A : Matrix (Fin m) (Fin n) ℤ) (v : Value) : Prop :=
  ∃ rows : IntMatrix, v = .matrix rows ∧ rows.Denotes A

/-- Whether a value that is an array has at least one entry, and rows of one length. -/
def Rectangular : Value → Prop
  | vector a => 0 < a.length
  | matrix rows => ∃ m n, 0 < m ∧ 0 < n ∧ rows.HasSize m n
  | _ => True

end Value

namespace Operation

/-- Whether an operator of linear algebra applies to two values, and their sizes agree. -/
def Conforms : BinaryOp → Value → Value → Prop
  | .add, .vector a, .vector b | .sub, .vector a, .vector b | .mul, .vector a, .vector b => a.length = b.length
  | .mul, .vector _, .integer _ | .mul, .integer _, .vector _ | .div, .vector _, .integer _ => True
  | .add, .matrix a, .matrix b | .sub, .matrix a, .matrix b => ∃ m n, a.HasSize m n ∧ b.HasSize m n
  | .mul, .matrix a, .matrix b => ∃ m n p, a.HasSize m n ∧ b.HasSize n p
  | .mul, .matrix a, .vector v => ∃ m, a.HasSize m v.length
  | .mul, .matrix _, .integer _ | .mul, .integer _, .matrix _ | .div, .matrix _, .integer _ => True
  | _, _, _ => False

/-- What the operators of linear algebra have to do with vectors, matrices that have rows and columns, and integers. -/
structure ExactLinear (apply : BinaryOp → Value → Value → Except Cause Value) : Prop where
  vectorSum {n : ℕ} {a b : IntVector} (ha : a.length = n) (hb : b.length = n) :
    Exactly (apply .add (.vector a) (.vector b)) (∀ i, Fits (a.numbers n i + b.numbers n i))
      (Value.IsVector (a.numbers n + b.numbers n))
  vectorDifference {n : ℕ} {a b : IntVector} (ha : a.length = n) (hb : b.length = n) :
    Exactly (apply .sub (.vector a) (.vector b)) (∀ i, Fits (a.numbers n i - b.numbers n i))
      (Value.IsVector (a.numbers n - b.numbers n))
  vectorProduct {n : ℕ} {a b : IntVector} (ha : a.length = n) (hb : b.length = n) :
    Exactly (apply .mul (.vector a) (.vector b)) (DotFits (a.numbers n) (b.numbers n))
      (Value.IsInteger (a.numbers n ⬝ᵥ b.numbers n))
  vectorMultiple {n : ℕ} {a : IntVector} (ha : a.length = n) (k : Integer) :
    Exactly (apply .mul (.vector a) (.integer k)) (∀ i, Fits (a.numbers n i * k.toInt))
        (Value.IsVector (k.toInt • a.numbers n)) ∧
      Exactly (apply .mul (.integer k) (.vector a)) (∀ i, Fits (a.numbers n i * k.toInt))
        (Value.IsVector (k.toInt • a.numbers n))
  vectorQuotient {n : ℕ} {a : IntVector} (ha : a.length = n) {k : Integer} (hk : k ≠ 0) :
    Exactly (apply .div (.vector a) (.integer k)) (∀ i, ¬ (a.numbers n i = Int64.minValue.toInt ∧ k = -1))
      (Value.IsVector fun i => (a.numbers n i).fdiv k.toInt)
  vectorByZero {a : IntVector} (ha : 0 < a.length) :
    apply .div (.vector a) (.integer 0) = .error .divisionByZero
  matrixSum {m n : ℕ} {a b : IntMatrix} (hm : 0 < m) (ha : a.HasSize m n) (hb : b.HasSize m n) :
    Exactly (apply .add (.matrix a) (.matrix b)) (∀ i j, Fits (a.numbers m n i j + b.numbers m n i j))
      (Value.IsMatrix (a.numbers m n + b.numbers m n))
  matrixDifference {m n : ℕ} {a b : IntMatrix} (hm : 0 < m) (ha : a.HasSize m n) (hb : b.HasSize m n) :
    Exactly (apply .sub (.matrix a) (.matrix b)) (∀ i j, Fits (a.numbers m n i j - b.numbers m n i j))
      (Value.IsMatrix (a.numbers m n - b.numbers m n))
  matrixProduct {m n p : ℕ} {a b : IntMatrix} (hm : 0 < m) (hn : 0 < n) (ha : a.HasSize m n) (hb : b.HasSize n p) :
    Exactly (apply .mul (.matrix a) (.matrix b))
      (∀ i j, DotFits ((a.numbers m n).row i) ((b.numbers n p).col j))
      (Value.IsMatrix (a.numbers m n * b.numbers n p))
  matrixVectorProduct {m n : ℕ} {a : IntMatrix} {v : IntVector} (hm : 0 < m) (ha : a.HasSize m n) (hv : v.length = n) :
    Exactly (apply .mul (.matrix a) (.vector v)) (∀ i, DotFits ((a.numbers m n).row i) (v.numbers n))
      (Value.IsVector ((a.numbers m n).mulVec (v.numbers n)))
  matrixMultiple {m n : ℕ} {a : IntMatrix} (ha : a.HasSize m n) (k : Integer) :
    Exactly (apply .mul (.matrix a) (.integer k)) (∀ i j, Fits (a.numbers m n i j * k.toInt))
        (Value.IsMatrix (k.toInt • a.numbers m n)) ∧
      Exactly (apply .mul (.integer k) (.matrix a)) (∀ i j, Fits (a.numbers m n i j * k.toInt))
        (Value.IsMatrix (k.toInt • a.numbers m n))
  matrixQuotient {m n : ℕ} {a : IntMatrix} (ha : a.HasSize m n) {k : Integer} (hk : k ≠ 0) :
    Exactly (apply .div (.matrix a) (.integer k)) (∀ i j, ¬ (a.numbers m n i j = Int64.minValue.toInt ∧ k = -1))
      (Value.IsMatrix ((a.numbers m n).map fun x => x.fdiv k.toInt))
  matrixByZero {m n : ℕ} {a : IntMatrix} (hm : 0 < m) (hn : 0 < n) (ha : a.HasSize m n) :
    apply .div (.matrix a) (.integer 0) = .error .divisionByZero
  /-- Sizes that disagree, and all other operators and operands, are refused. -/
  refused {op : BinaryOp} {left right : Value} (hleft : left.Rectangular) (hright : right.Rectangular)
      (h : ¬ Conforms op left right) :
    apply op left right = .error (.typeMismatch (.operands op left.kind right.kind))

/-- An integer that is computed exactly is the result. -/
theorem exactly_isInteger {x : Except Cause Integer} {F : Prop} {n : ℤ} (h : Exactly x F (·.toInt = n)) :
    Exactly (do return .integer (← x)) F (Value.IsInteger n) :=
  h.map fun c hc => ⟨c, rfl, hc⟩

/-- A vector that is computed exactly is the result. -/
theorem exactly_isVector {n : ℕ} {x : Except Cause IntVector} {F : Prop} {f : Fin n → ℤ}
    (h : Exactly x F (IntVector.Denotes · f)) : Exactly (do return .vector (← x)) F (Value.IsVector f) :=
  h.map fun c hc => ⟨c, rfl, hc⟩

/-- A matrix that is computed exactly is the result. -/
theorem exactly_isMatrix {m n : ℕ} {x : Except Cause IntMatrix} {F : Prop} {A : Matrix (Fin m) (Fin n) ℤ}
    (h : Exactly x F (IntMatrix.Denotes · A)) : Exactly (do return .matrix (← x)) F (Value.IsMatrix A) :=
  h.map fun rows hrows => ⟨rows, rfl, hrows⟩

/-- Matrices of one shape have one size. -/
theorem hasSize_of_shape_eq {a b : IntMatrix} (ha : (Value.matrix a).Rectangular) (hb : (Value.matrix b).Rectangular)
    (hshape : IntMatrix.shape a = IntMatrix.shape b) : ∃ m n, a.HasSize m n ∧ b.HasSize m n := by
  obtain ⟨m, n, hm, -, hsize⟩ := ha
  obtain ⟨m', n', hm', -, hsize'⟩ := hb
  rw [hsize.shape hm, hsize'.shape hm'] at hshape
  cases hshape
  exact ⟨m, n, hsize, hsize'⟩

/-- Operators are refused where sizes disagree, and where they do not apply. -/
theorem linear_refused {op : BinaryOp} {left right : Value} (hleft : left.Rectangular) (hright : right.Rectangular)
    (h : ¬ Conforms op left right) : linear op left right = mismatch op left right := by
  unfold linear
  split
  · exact if_neg h
  · exact if_neg h
  · exact if_neg h
  · exact absurd trivial h
  · exact absurd trivial h
  · exact absurd trivial h
  · exact if_neg fun hshape => h (hasSize_of_shape_eq hleft hright hshape)
  · exact if_neg fun hshape => h (hasSize_of_shape_eq hleft hright hshape)
  · obtain ⟨m, n, hm, -, hsize⟩ := hleft
    obtain ⟨n', p, hn', -, hsize'⟩ := hright
    refine if_neg fun hinner => h ?_
    rw [hsize.shape hm, hsize'.shape hn'] at hinner
    cases hinner
    exact ⟨m, n, p, hsize, hsize'⟩
  · obtain ⟨m, n, hm, -, hsize⟩ := hleft
    refine if_neg fun hinner => h ?_
    rw [hsize.shape hm] at hinner
    cases hinner
    exact ⟨m, hsize⟩
  · exact absurd trivial h
  · exact absurd trivial h
  · exact absurd trivial h
  · rfl

/-- Linear algebra is exact: it gives the sums, differences, products, multiples and quotients of vectors and matrices
of numbers whenever all numbers on the way are in range, and overflows if one of them is not. Everything else is
refused. -/
theorem linear_exact : ExactLinear linear where
  vectorSum {n a b} ha hb := by
    have hequal : linear .add (.vector a) (.vector b) = (do return .vector (← entrywise .add a b)) :=
      if_pos (ha.trans hb.symm)
    rw [hequal]
    exact exactly_isVector (entrywise_add_exactly (a.denotes_numbers ha) (b.denotes_numbers hb))
  vectorDifference {n a b} ha hb := by
    have hequal : linear .sub (.vector a) (.vector b) = (do return .vector (← entrywise .sub a b)) :=
      if_pos (ha.trans hb.symm)
    rw [hequal]
    exact exactly_isVector (entrywise_sub_exactly (a.denotes_numbers ha) (b.denotes_numbers hb))
  vectorProduct {n a b} ha hb := by
    have hequal : linear .mul (.vector a) (.vector b) = (do return .integer (← IntVector.dot a b)) :=
      if_pos (ha.trans hb.symm)
    rw [hequal]
    exact exactly_isInteger (IntVector.dot_exactly (a.denotes_numbers ha) (b.denotes_numbers hb))
  vectorMultiple {n a} ha k :=
    have hscale := exactly_isVector (scale_exactly (a.denotes_numbers ha) k)
    ⟨hscale, hscale⟩
  vectorQuotient {n a} ha k hk := exactly_isVector (divide_exactly (a.denotes_numbers ha) hk)
  vectorByZero {a} ha := by
    have hzero := divide_zero (List.ne_nil_of_length_pos ha)
    change (do return Value.vector (← divide a 0)) = _
    rw [hzero]
    rfl
  matrixSum {m n a b} hm ha hb := by
    have hequal : linear .add (.matrix a) (.matrix b) = (do return .matrix (← rowwise .add a b)) :=
      if_pos ((ha.shape hm).trans (hb.shape hm).symm)
    rw [hequal]
    exact exactly_isMatrix (rowwise_exactly (fun _ _ _ _ => entrywise_add_exactly) (a.denotes_numbers ha)
      (b.denotes_numbers hb))
  matrixDifference {m n a b} hm ha hb := by
    have hequal : linear .sub (.matrix a) (.matrix b) = (do return .matrix (← rowwise .sub a b)) :=
      if_pos ((ha.shape hm).trans (hb.shape hm).symm)
    rw [hequal]
    exact exactly_isMatrix (rowwise_exactly (fun _ _ _ _ => entrywise_sub_exactly) (a.denotes_numbers ha)
      (b.denotes_numbers hb))
  matrixProduct {m n p a b} hm hn ha hb := by
    have hinner : (IntMatrix.shape a).2 = (IntMatrix.shape b).1 := by rw [ha.shape hm, hb.shape hn]
    have hequal : linear .mul (.matrix a) (.matrix b) = (do return .matrix (← IntMatrix.product a b)) :=
      if_pos hinner
    rw [hequal]
    exact exactly_isMatrix (IntMatrix.product_exactly (a.denotes_numbers ha) (b.denotes_numbers hb) hn)
  matrixVectorProduct {m n a v} hm ha hv := by
    have hinner : (IntMatrix.shape a).2 = v.length := by rw [ha.shape hm, hv]
    have hequal : linear .mul (.matrix a) (.vector v) =
        (do return .vector (← a.mapM fun row => IntVector.dot row v)) := if_pos hinner
    rw [hequal]
    exact exactly_isVector (IntVector.exactly_mapM ha.1 fun i row hrow =>
      IntVector.dot_exactly ((a.denotes_numbers ha).row hrow) (v.denotes_numbers hv))
  matrixMultiple {m n a} ha k :=
    have hscale := exactly_isMatrix (mapM_scale_exactly (a.denotes_numbers ha) k)
    ⟨hscale, hscale⟩
  matrixQuotient {m n a} ha k hk := exactly_isMatrix (mapM_divide_exactly (a.denotes_numbers ha) hk)
  matrixByZero {m n a} hm hn ha := by
    have hzero := mapM_divide_zero ha hm hn
    change (do return Value.matrix (← a.mapM fun row => divide row 0)) = _
    rw [hzero]
    rfl
  refused hleft hright h := linear_refused hleft hright h

/-- A product of vectors overflows on the way although it is in range, and a row of numbers times a column of them is a
single number. -/
theorem linear_exact_partial_sum :
    linear .mul (.vector [Int64.maxValue, 1, -1]) (.vector [1, 1, 1]) = .error .overflow ∧
      Fits (IntVector.numbers 3 [Int64.maxValue, 1, -1] ⬝ᵥ IntVector.numbers 3 [1, 1, 1]) ∧
      ∃ v, linear .mul (.matrix [[1, 2]]) (.matrix [[3], [4]]) = .ok v ∧
        v.IsMatrix (IntMatrix.numbers 1 2 [[1, 2]] * IntMatrix.numbers 2 1 [[3], [4]]) := by
  refine ⟨?_, ?_, ?_⟩
  · refine (linear_exact.vectorProduct (n := 3) rfl rfl).overflow fun h => ?_
    have hsum := h.2 2 (by decide)
    rw [Fin.sum_univ_two] at hsum
    revert hsum
    unfold Fits
    decide
  · rw [dotProduct, Fin.sum_univ_three]
    unfold Fits
    decide
  · have hrow : IntMatrix.HasSize [[1, 2]] 1 2 := ⟨rfl, by decide⟩
    have hcolumn : IntMatrix.HasSize [[3], [4]] 2 1 := ⟨rfl, by decide⟩
    refine (linear_exact.matrixProduct (by decide) (by decide) hrow hcolumn).ok fun i j => ?_
    obtain rfl : i = 0 := Subsingleton.elim i 0
    obtain rfl : j = 0 := Subsingleton.elim j 0
    unfold DotFits Fits
    decide

end Operation

end StackLang
