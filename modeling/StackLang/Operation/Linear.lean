import StackLang.Operation.Scalar

/-!
# Linear algebra on integer vectors and matrices

Sums, products and quotients of vectors and matrices. Sizes are checked by the operator; the functions below
it take rows as they come and stop at the shorter of two.
-/

namespace StackLang

/-- The sum of the products of corresponding entries, added from left to right. -/
def IntVector.dot (a b : IntVector) : Except Cause Integer :=
  (a.zip b).foldlM (fun total (x, y) => do total.sum (← x.product y)) 0

/-- Some columns with one more row, whose entries go below them from the first column on. -/
def IntMatrix.addRow : (columns : List IntVector) → (row : IntVector) → List IntVector
  | column :: columns, entry :: row => (column ++ [entry]) :: IntMatrix.addRow columns row
  | columns, _ => columns

/-- The columns of a matrix, as many as its first row has entries. They are filled row by row. -/
def IntMatrix.transpose (rows : IntMatrix) : IntMatrix :=
  rows.foldl IntMatrix.addRow (List.replicate (IntMatrix.shape rows).2 [])

/-- A column gets the entry of the row at its own position, if there is one. -/
theorem IntMatrix.getElem?_addRow (columns : List IntVector) (row : IntVector) (j : Nat) :
    (IntMatrix.addRow columns row)[j]? = columns[j]?.map (· ++ row[j]?.toList) := by
  fun_induction IntMatrix.addRow columns row generalizing j with
  | case1 column columns entry row ih => cases j <;> simp [ih]
  | case2 row columns hnone =>
    cases columns with
    | nil => rfl
    | cons column columns =>
      cases row with
      | nil => simp
      | cons entry row => exact (hnone column columns entry row rfl rfl).elim

/-- Columns that are filled row by row hold the rows' entries at their own position. -/
theorem IntMatrix.getElem?_foldl_addRow (rows : IntMatrix) (columns : List IntVector) (j : Nat) :
    (rows.foldl IntMatrix.addRow columns)[j]? = columns[j]?.map (· ++ rows.filterMap fun row => row[j]?) := by
  induction rows generalizing columns with
  | nil => simp
  | cons row rows ih =>
    rw [List.foldl_cons, ih, IntMatrix.getElem?_addRow, Option.map_map]
    cases hentry : row[j]? <;> simp [Function.comp_def, hentry]

/-- The columns of a matrix by their positions. -/
theorem IntMatrix.transpose_eq (rows : IntMatrix) :
    IntMatrix.transpose rows =
      (List.range (IntMatrix.shape rows).2).map fun j => rows.filterMap fun row => row[j]? := by
  apply List.ext_getElem?
  intro j
  rw [IntMatrix.transpose, IntMatrix.getElem?_foldl_addRow]
  by_cases hj : j < (IntMatrix.shape rows).2
  · simp [hj]
  · simp [hj]

/-- The product of two matrices: the products of the rows of one with the columns of the other. -/
def IntMatrix.product (a b : IntMatrix) : Except Cause IntMatrix :=
  let columns := IntMatrix.transpose b
  a.mapM fun row => columns.mapM fun column => IntVector.dot row column

/-- The square matrix with ones on its diagonal and zeros elsewhere. -/
def IntMatrix.identity (size : Nat) : IntMatrix :=
  (List.range size).map fun i => (List.range size).map fun j => if i = j then 1 else 0

namespace Operation

/-- The sums or differences of corresponding entries. -/
def entrywise (op : BinaryOp) (a b : IntVector) : Except Cause IntVector :=
  (a.zip b).mapM fun (x, y) =>
    match op with
    | .add => x.sum y
    | .sub => x.difference y
    | _ => .error (.defect .unroutedOperator)

/-- The sums or differences of corresponding rows. -/
def rowwise (op : BinaryOp) (a b : IntMatrix) : Except Cause IntMatrix :=
  (a.zip b).mapM fun (x, y) => entrywise op x y

/-- The products of the entries with an integer. -/
def scale (a : IntVector) (k : Integer) : Except Cause IntVector := a.mapM fun x => x.product k

/-- The quotients of the entries by an integer. -/
def divide (a : IntVector) (k : Integer) : Except Cause IntVector := a.mapM fun x => x.floorDiv k

/-- Arithmetic on two values of which one is a vector or a matrix. -/
def linear (op : BinaryOp) (left right : Value) : Except Cause Value :=
  match op, left, right with
  | .add, .vector a, .vector b | .sub, .vector a, .vector b => do
    if a.length = b.length then return .vector (← entrywise op a b) else mismatch op left right
  | .mul, .vector a, .vector b => do
    if a.length = b.length then return .integer (← IntVector.dot a b) else mismatch op left right
  | .mul, .vector a, .integer k | .mul, .integer k, .vector a => do return .vector (← scale a k)
  | .div, .vector a, .integer k => do return .vector (← divide a k)
  | .add, .matrix a, .matrix b | .sub, .matrix a, .matrix b => do
    if IntMatrix.shape a = IntMatrix.shape b then return .matrix (← rowwise op a b)
    else mismatch op left right
  | .mul, .matrix a, .matrix b => do
    if (IntMatrix.shape a).2 = (IntMatrix.shape b).1 then return .matrix (← IntMatrix.product a b)
    else mismatch op left right
  | .mul, .matrix a, .vector v => do
    if (IntMatrix.shape a).2 = v.length then return .vector (← a.mapM fun row => IntVector.dot row v)
    else mismatch op left right
  | .mul, .matrix a, .integer k | .mul, .integer k, .matrix a => do
    return .matrix (← a.mapM fun row => scale row k)
  | .div, .matrix a, .integer k => do return .matrix (← a.mapM fun row => divide row k)
  | op, left, right => mismatch op left right

/-- What linear algebra does, one case for each kind of operands that an operator takes, and one for all others. -/
inductive LinearCase : BinaryOp → Value → Value → Except Cause Value → Prop
  | vectors {op : BinaryOp} {a b : IntVector} (hop : op = .add ∨ op = .sub) (h : a.length = b.length) :
      LinearCase op (.vector a) (.vector b) do return .vector (← entrywise op a b)
  | dot {a b : IntVector} (h : a.length = b.length) :
      LinearCase .mul (.vector a) (.vector b) do return .integer (← IntVector.dot a b)
  | scale (a : IntVector) (k : Integer) :
      LinearCase .mul (.vector a) (.integer k) do return .vector (← scale a k)
  | scaleFrom (k : Integer) (a : IntVector) :
      LinearCase .mul (.integer k) (.vector a) do return .vector (← scale a k)
  | divide (a : IntVector) (k : Integer) :
      LinearCase .div (.vector a) (.integer k) do return .vector (← divide a k)
  | matrices {op : BinaryOp} {a b : IntMatrix} (hop : op = .add ∨ op = .sub)
      (h : IntMatrix.shape a = IntMatrix.shape b) :
      LinearCase op (.matrix a) (.matrix b) do return .matrix (← rowwise op a b)
  | product {a b : IntMatrix} (h : (IntMatrix.shape a).2 = (IntMatrix.shape b).1) :
      LinearCase .mul (.matrix a) (.matrix b) do return .matrix (← IntMatrix.product a b)
  | productVector {a : IntMatrix} {v : IntVector} (h : (IntMatrix.shape a).2 = v.length) :
      LinearCase .mul (.matrix a) (.vector v) do return .vector (← a.mapM fun row => IntVector.dot row v)
  | scaleRows (a : IntMatrix) (k : Integer) :
      LinearCase .mul (.matrix a) (.integer k) do return .matrix (← a.mapM fun row => Operation.scale row k)
  | scaleRowsFrom (k : Integer) (a : IntMatrix) :
      LinearCase .mul (.integer k) (.matrix a) do return .matrix (← a.mapM fun row => Operation.scale row k)
  | divideRows (a : IntMatrix) (k : Integer) :
      LinearCase .div (.matrix a) (.integer k) do return .matrix (← a.mapM fun row => Operation.divide row k)
  | mismatch (op : BinaryOp) (left right : Value) : LinearCase op left right (mismatch op left right)

/-- Linear algebra is one of its cases. -/
theorem linear_cases (op : BinaryOp) (left right : Value) : LinearCase op left right (linear op left right) := by
  have hchoice {op : BinaryOp} {left right : Value} {p : Prop} [Decidable p] {x : Except Cause Value}
      (h : p → LinearCase op left right x) :
      LinearCase op left right (if p then x else mismatch op left right) := by
    split
    · exact h ‹_›
    · exact .mismatch op left right
  unfold linear
  split
  · exact hchoice (.vectors (.inl rfl))
  · exact hchoice (.vectors (.inr rfl))
  · exact hchoice .dot
  · exact .scale _ _
  · exact .scaleFrom _ _
  · exact .divide _ _
  · exact hchoice (.matrices (.inl rfl))
  · exact hchoice (.matrices (.inr rfl))
  · exact hchoice .product
  · exact hchoice .productVector
  · exact .scaleRows _ _
  · exact .scaleRowsFrom _ _
  · exact .divideRows _ _
  · exact .mismatch _ _ _

/-- The difference of two products of entries of a pair of vectors. -/
def crossTerm (a b : IntVector) (i j : Nat) : Except Cause Integer := do
  let ai ← orDefect .outOfBounds a[i]?
  let bj ← orDefect .outOfBounds b[j]?
  let first ← ai.product bj
  let aj ← orDefect .outOfBounds a[j]?
  let bi ← orDefect .outOfBounds b[i]?
  let second ← aj.product bi
  first.difference second

/-- The cross product of two vectors of length three. -/
def cross (left right : Value) : Except Cause Value :=
  match left, right with
  | .vector a, .vector b =>
    if a.length = 3 ∧ b.length = 3 then do
      return .vector [← crossTerm a b 1 2, ← crossTerm a b 2 0, ← crossTerm a b 0 1]
    else .error (.typeMismatch (.crossProduct left.kind right.kind))
  | left, right => .error (.typeMismatch (.crossProduct left.kind right.kind))

end Operation

end StackLang
