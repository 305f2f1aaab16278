import StackLang.Located
import StackLang.Operation

/-!
# Operators on a line

The operators on values, given the line of the token that they are applied for. Each function builds its own failures
on that line and hands the line to the functions it calls. Each is followed by the equation that connects it with the
function without lines.
-/

namespace StackLang

/-! ## Integers -/

namespace Integer

/-- The exact sum. -/
def sumAt (line : Nat) (a b : Integer) : LocatedResult Integer := orOverflowAt line (a.add? b)

/-- The exact difference. -/
def differenceAt (line : Nat) (a b : Integer) : LocatedResult Integer := orOverflowAt line (a.sub? b)

/-- The exact product. -/
def productAt (line : Nat) (a b : Integer) : LocatedResult Integer := orOverflowAt line (a.mul? b)

/-- The quotient rounded towards minus infinity. -/
def floorDivAt (line : Nat) (a b : Integer) : LocatedResult Integer :=
  if b = 0 then .error { line, cause := .divisionByZero }
  else do
    let quotient ← orOverflowAt line (a.quot? b)
    let remainder ← orDefectAt line .unexpectedOverflow (a.rem? b)
    if remainder ≠ 0 ∧ ((a < 0) ≠ (b < 0)) then orDefectAt line .unexpectedOverflow (quotient.sub? 1)
    else return quotient

/-- The remainder of the quotient rounded towards minus infinity. -/
def floorModAt (line : Nat) (a b : Integer) : LocatedResult Integer :=
  if b = 0 then .error { line, cause := .divisionByZero }
  else
    let remainder := (a.rem? b).getD 0
    if remainder ≠ 0 ∧ ((remainder < 0) ≠ (b < 0)) then orDefectAt line .unexpectedOverflow (remainder.add? b)
    else .ok remainder

/-- The product with a power of two, or the quotient for a negative amount. -/
def shiftLeftAt (line : Nat) (a amount : Integer) : LocatedResult Integer :=
  if amount < 0 then .ok (a.shiftDown amount.toInt.natAbs) else orOverflowAt line (a.shiftUp? amount.toInt.natAbs)

/-- The quotient by a power of two, or the product for a negative amount. -/
def shiftRightAt (line : Nat) (a amount : Integer) : LocatedResult Integer :=
  if amount < 0 then do shiftLeftAt line a (← orOverflowAt line amount.neg?)
  else .ok (a.shiftDown amount.toInt.natAbs)

/-- An integer as a number of stack positions. -/
def toCountAt (line : Nat) (n : Integer) : LocatedResult Nat :=
  if n < 0 then .error { line, cause := .invalidArgument (.negativeCount n) } else .ok n.toInt.toNat

/-- An integer as an exponent. -/
def toExponentAt (line : Nat) (n : Integer) : LocatedResult Nat :=
  if n < 0 then .error { line, cause := .invalidArgument (.negativeInteger n) }
  else if n.toInt.toNat < Nat.pow 2 32 then .ok n.toInt.toNat
  else .error { line, cause := .literalTooLarge }

section

variable (line : Nat) (a b : Integer)

/-- Sums fail on the line. -/
theorem sumAt_eq : a.sumAt line b = stamp line (a.sum b) := orOverflowAt_eq _

/-- Differences fail on the line. -/
theorem differenceAt_eq : a.differenceAt line b = stamp line (a.difference b) := orOverflowAt_eq _

/-- Products fail on the line. -/
theorem productAt_eq : a.productAt line b = stamp line (a.product b) := orOverflowAt_eq _

/-- Quotients fail on the line. -/
theorem floorDivAt_eq : a.floorDivAt line b = stamp line (a.floorDiv b) :=
  ite_eq_stamp rfl <| bind_eq_stamp (orOverflowAt_eq _) fun _ => bind_eq_stamp (orDefectAt_eq _ _) fun _ =>
    ite_eq_stamp (orDefectAt_eq _ _) rfl

/-- Remainders fail on the line. -/
theorem floorModAt_eq : a.floorModAt line b = stamp line (a.floorMod b) :=
  ite_eq_stamp rfl (ite_eq_stamp (orDefectAt_eq _ _) rfl)

/-- Shifts to the left fail on the line. -/
theorem shiftLeftAt_eq : a.shiftLeftAt line b = stamp line (a.shiftLeft b) := ite_eq_stamp rfl (orOverflowAt_eq _)

/-- Shifts to the right fail on the line. -/
theorem shiftRightAt_eq : a.shiftRightAt line b = stamp line (a.shiftRight b) :=
  ite_eq_stamp (bind_eq_stamp (orOverflowAt_eq _) (shiftLeftAt_eq line a)) rfl

/-- Counts fail on the line. -/
theorem toCountAt_eq : a.toCountAt line = stamp line a.toCount := ite_eq_stamp rfl rfl

/-- Exponents fail on the line. -/
theorem toExponentAt_eq : a.toExponentAt line = stamp line a.toExponent := ite_eq_stamp rfl (ite_eq_stamp rfl rfl)

end

end Integer

/-! ## Values of a kind -/

namespace Value

/-- A number as a float. -/
def realAt (line : Nat) : Value → LocatedResult Float
  | float x => .ok x
  | integer n => .ok n.toFloat
  | v => .error { line, cause := .typeMismatch (.notANumber v.kind) }

/-- A value that has to be an integer. -/
def asIntegerAt (line : Nat) : Value → LocatedResult Integer
  | integer n => .ok n
  | _ => .error { line, cause := .expectedInteger }

/-- A value that has to be a truth value. -/
def asBooleanAt (line : Nat) : Value → LocatedResult Bool
  | boolean b => .ok b
  | _ => .error { line, cause := .expectedBoolean }

/-- What is no number fails on the line. -/
theorem realAt_eq (line : Nat) (v : Value) : v.realAt line = stamp line v.real := by
  cases v <;> rfl

/-- What is no integer fails on the line. -/
theorem asIntegerAt_eq (line : Nat) (v : Value) : v.asIntegerAt line = stamp line v.asInteger := by
  cases v <;> rfl

/-- What is no truth value fails on the line. -/
theorem asBooleanAt_eq (line : Nat) (v : Value) : v.asBooleanAt line = stamp line v.asBoolean := by
  cases v <;> rfl

end Value

/-! ## Vectors and matrices -/

/-- The sum of the products of corresponding entries. -/
def IntVector.dotAt (line : Nat) (a b : IntVector) : LocatedResult Integer :=
  (a.zip b).foldlM (fun total (x, y) => do total.sumAt line (← x.productAt line y)) 0

/-- The product of two matrices. -/
def IntMatrix.productAt (line : Nat) (a b : IntMatrix) : LocatedResult IntMatrix :=
  let columns := IntMatrix.transpose b
  a.mapM fun row => columns.mapM fun column => IntVector.dotAt line row column

/-- Products of vectors fail on the line. -/
theorem IntVector.dotAt_eq (line : Nat) (a b : IntVector) :
    IntVector.dotAt line a b = stamp line (IntVector.dot a b) :=
  foldlM_eq_stamp (fun total (x, y) => bind_eq_stamp (x.productAt_eq line y) (total.sumAt_eq line)) _ _

/-- Products of matrices fail on the line. -/
theorem IntMatrix.productAt_eq (line : Nat) (a b : IntMatrix) :
    IntMatrix.productAt line a b = stamp line (IntMatrix.product a b) :=
  mapM_eq_stamp (fun row => mapM_eq_stamp (IntVector.dotAt_eq line row) _) a

namespace Operation

/-- The failure of an operator that does not apply to its operands. -/
def mismatchAt {α : Type} (line : Nat) (op : BinaryOp) (left right : Value) : LocatedResult α :=
  .error { line, cause := .typeMismatch (.operands op left.kind right.kind) }

/-- The sums or differences of corresponding entries. -/
def entrywiseAt (line : Nat) (op : BinaryOp) (a b : IntVector) : LocatedResult IntVector :=
  (a.zip b).mapM fun (x, y) =>
    match op with
    | .add => x.sumAt line y
    | .sub => x.differenceAt line y
    | _ => .error { line, cause := .defect .unroutedOperator }

/-- The sums or differences of corresponding rows. -/
def rowwiseAt (line : Nat) (op : BinaryOp) (a b : IntMatrix) : LocatedResult IntMatrix :=
  (a.zip b).mapM fun (x, y) => entrywiseAt line op x y

/-- The products of the entries with an integer. -/
def scaleAt (line : Nat) (a : IntVector) (k : Integer) : LocatedResult IntVector :=
  a.mapM fun x => x.productAt line k

/-- The quotients of the entries by an integer. -/
def divideAt (line : Nat) (a : IntVector) (k : Integer) : LocatedResult IntVector :=
  a.mapM fun x => x.floorDivAt line k

/-- Arithmetic on two values of which one is a vector or a matrix. -/
def linearAt (line : Nat) (op : BinaryOp) (left right : Value) : LocatedResult Value :=
  match op, left, right with
  | .add, .vector a, .vector b | .sub, .vector a, .vector b => do
    if a.length = b.length then return .vector (← entrywiseAt line op a b) else mismatchAt line op left right
  | .mul, .vector a, .vector b => do
    if a.length = b.length then return .integer (← IntVector.dotAt line a b) else mismatchAt line op left right
  | .mul, .vector a, .integer k | .mul, .integer k, .vector a => do return .vector (← scaleAt line a k)
  | .div, .vector a, .integer k => do return .vector (← divideAt line a k)
  | .add, .matrix a, .matrix b | .sub, .matrix a, .matrix b => do
    if IntMatrix.shape a = IntMatrix.shape b then return .matrix (← rowwiseAt line op a b)
    else mismatchAt line op left right
  | .mul, .matrix a, .matrix b => do
    if (IntMatrix.shape a).2 = (IntMatrix.shape b).1 then return .matrix (← IntMatrix.productAt line a b)
    else mismatchAt line op left right
  | .mul, .matrix a, .vector v => do
    if (IntMatrix.shape a).2 = v.length then return .vector (← a.mapM fun row => IntVector.dotAt line row v)
    else mismatchAt line op left right
  | .mul, .matrix a, .integer k | .mul, .integer k, .matrix a => do
    return .matrix (← a.mapM fun row => scaleAt line row k)
  | .div, .matrix a, .integer k => do return .matrix (← a.mapM fun row => divideAt line row k)
  | op, left, right => mismatchAt line op left right

/-- The difference of two products of entries of a pair of vectors. -/
def crossTermAt (line : Nat) (a b : IntVector) (i j : Nat) : LocatedResult Integer := do
  let ai ← orDefectAt line .outOfBounds a[i]?
  let bj ← orDefectAt line .outOfBounds b[j]?
  let first ← ai.productAt line bj
  let aj ← orDefectAt line .outOfBounds a[j]?
  let bi ← orDefectAt line .outOfBounds b[i]?
  let second ← aj.productAt line bi
  first.differenceAt line second

/-- The cross product of two vectors of length three. -/
def crossAt (line : Nat) (left right : Value) : LocatedResult Value :=
  match left, right with
  | .vector a, .vector b =>
    if a.length = 3 ∧ b.length = 3 then do
      return .vector [← crossTermAt line a b 1 2, ← crossTermAt line a b 2 0, ← crossTermAt line a b 0 1]
    else .error { line, cause := .typeMismatch (.crossProduct left.kind right.kind) }
  | left, right => .error { line, cause := .typeMismatch (.crossProduct left.kind right.kind) }

section

variable (line : Nat)

/-- Sums and differences of vectors fail on the line. -/
theorem entrywiseAt_eq (op : BinaryOp) (a b : IntVector) :
    entrywiseAt line op a b = stamp line (entrywise op a b) := by
  refine mapM_eq_stamp (fun (x, y) => ?_) _
  cases op with
  | add => exact x.sumAt_eq line y
  | sub => exact x.differenceAt_eq line y
  | _ => rfl

/-- Sums and differences of matrices fail on the line. -/
theorem rowwiseAt_eq (op : BinaryOp) (a b : IntMatrix) : rowwiseAt line op a b = stamp line (rowwise op a b) :=
  mapM_eq_stamp (fun (x, y) => entrywiseAt_eq line op x y) _

/-- Multiples of vectors fail on the line. -/
theorem scaleAt_eq (a : IntVector) (k : Integer) : scaleAt line a k = stamp line (scale a k) :=
  mapM_eq_stamp (fun x => x.productAt_eq line k) a

/-- Fractions of vectors fail on the line. -/
theorem divideAt_eq (a : IntVector) (k : Integer) : divideAt line a k = stamp line (divide a k) :=
  mapM_eq_stamp (fun x => x.floorDivAt_eq line k) a

/-- Linear algebra fails on the line. -/
theorem linearAt_eq (op : BinaryOp) (left right : Value) :
    linearAt line op left right = stamp line (linear op left right) := by
  unfold linearAt
  split
  · exact ite_eq_stamp (map_eq_stamp (entrywiseAt_eq line _ _ _) _) rfl
  · exact ite_eq_stamp (map_eq_stamp (entrywiseAt_eq line _ _ _) _) rfl
  · exact ite_eq_stamp (map_eq_stamp (IntVector.dotAt_eq line _ _) _) rfl
  · exact map_eq_stamp (scaleAt_eq line _ _) _
  · exact map_eq_stamp (scaleAt_eq line _ _) _
  · exact map_eq_stamp (divideAt_eq line _ _) _
  · exact ite_eq_stamp (map_eq_stamp (rowwiseAt_eq line _ _ _) _) rfl
  · exact ite_eq_stamp (map_eq_stamp (rowwiseAt_eq line _ _ _) _) rfl
  · exact ite_eq_stamp (map_eq_stamp (IntMatrix.productAt_eq line _ _) _) rfl
  · exact ite_eq_stamp (map_eq_stamp (mapM_eq_stamp (fun row => IntVector.dotAt_eq line row _) _) _) rfl
  · exact map_eq_stamp (mapM_eq_stamp (fun row => scaleAt_eq line row _) _) _
  · exact map_eq_stamp (mapM_eq_stamp (fun row => scaleAt_eq line row _) _) _
  · exact map_eq_stamp (mapM_eq_stamp (fun row => divideAt_eq line row _) _) _
  · rw [linear]
    · rfl
    all_goals assumption

/-- The terms of a cross product fail on the line. -/
theorem crossTermAt_eq (a b : IntVector) (i j : Nat) :
    crossTermAt line a b i j = stamp line (crossTerm a b i j) :=
  bind_eq_stamp (orDefectAt_eq _ _) fun ai => bind_eq_stamp (orDefectAt_eq _ _) fun bj =>
    bind_eq_stamp (ai.productAt_eq line bj) fun first => bind_eq_stamp (orDefectAt_eq _ _) fun aj =>
      bind_eq_stamp (orDefectAt_eq _ _) fun bi => bind_eq_stamp (aj.productAt_eq line bi) fun second =>
        first.differenceAt_eq line second

/-- Cross products fail on the line. -/
theorem crossAt_eq (left right : Value) : crossAt line left right = stamp line (cross left right) := by
  cases left with
  | vector a =>
    cases right with
    | vector b =>
      refine ite_eq_stamp ?_ rfl
      exact bind_eq_stamp (crossTermAt_eq line _ _ _ _) fun _ => bind_eq_stamp (crossTermAt_eq line _ _ _ _) fun _ =>
        bind_eq_stamp (crossTermAt_eq line _ _ _ _) fun _ => rfl
    | _ => rfl
  | _ => rfl

end

/-! ## Numbers and texts -/

/-- Arithmetic on integers. -/
def integerArithmeticAt (line : Nat) (op : BinaryOp) (a b : Integer) : LocatedResult Integer :=
  match op with
  | .add => a.sumAt line b
  | .sub => a.differenceAt line b
  | .mul => a.productAt line b
  | .div => a.floorDivAt line b
  | .mod => a.floorModAt line b
  | _ => .error { line, cause := .defect .unroutedOperator }

/-- Arithmetic on floats. -/
def floatArithmeticAt (line : Nat) (op : BinaryOp) (x y : Float) : LocatedResult Float :=
  match op with
  | .add => .ok (x + y)
  | .sub => .ok (x - y)
  | .mul => .ok (x * y)
  | .div => if y == 0.0 then .error { line, cause := .divisionByZero } else .ok (x / y)
  | .mod => if y == 0.0 then .error { line, cause := .divisionByZero } else .ok (floatMod x y)
  | _ => .error { line, cause := .defect .unroutedOperator }

/-- Arithmetic on two values that are neither vectors nor matrices. -/
def scalarAt (line : Nat) (op : BinaryOp) (left right : Value) : LocatedResult Value :=
  match left, right with
  | .integer a, .integer b => do return .integer (← integerArithmeticAt line op a b)
  | .string a, .string b => if op = .add then .ok (.string (a ++ b)) else mismatchAt line op left right
  | left, right =>
    if left.isNumber && right.isNumber then do
      return .float (← floatArithmeticAt line op (← left.realAt line) (← right.realAt line))
    else mismatchAt line op left right

/-- A bitwise operator on integers. -/
def integerBitsAt (line : Nat) (op : BinaryOp) (a b : Integer) : LocatedResult Integer :=
  match op with
  | .bitAnd => .ok (a &&& b)
  | .bitOr => .ok (a ||| b)
  | .bitXor => .ok (a ^^^ b)
  | .shiftLeft => a.shiftLeftAt line b
  | .shiftRight => a.shiftRightAt line b
  | _ => .error { line, cause := .defect .unroutedOperator }

/-- The result of a bitwise operator. -/
def bitwiseAt (line : Nat) (op : BinaryOp) (left right : Value) : LocatedResult Value :=
  match left, right with
  | .integer a, .integer b => do return .integer (← integerBitsAt line op a b)
  | .boolean a, .boolean b =>
    match op with
    | .bitAnd => .ok (.boolean (a && b))
    | .bitOr => .ok (.boolean (a || b))
    | .bitXor => .ok (.boolean (a ^^ b))
    | op => mismatchAt line op left right
  | left, right => mismatchAt line op left right

/-- The result of a comparison operator. -/
def comparisonAt (line : Nat) (op : BinaryOp) (left right : Value) : LocatedResult Value :=
  match op with
  | .equal => .ok (.boolean (equal left right))
  | .notEqual => .ok (.boolean (!equal left right))
  | op =>
    match order? left right with
    | none => .error { line, cause := .typeMismatch (.comparison left.kind right.kind) }
    | some order =>
      match op with
      | .less => .ok (.boolean order.isLT)
      | .greater => .ok (.boolean order.isGT)
      | .lessEqual => .ok (.boolean order.isLE)
      | .greaterEqual => .ok (.boolean order.isGE)
      | .compare => .ok (.integer (Integer.ofOrdering order))
      | _ => .error { line, cause := .defect .unroutedOperator }

/-- The power of two values. -/
def powerAt (line : Nat) (base exponent : Value) : LocatedResult Value :=
  match base, exponent with
  | .matrix rows, .integer e => do
    let (height, width) := IntMatrix.shape rows
    if height = width then
      let e ← e.toExponentAt line
      return .matrix (← powerFrom (IntMatrix.productAt line) (IntMatrix.identity rows.length) rows e)
    else .error { line, cause := .typeMismatch (.nonSquarePower base.kind) }
  | base, exponent =>
    match base, exponent with
    | .integer b, .integer e =>
      if 0 ≤ e then do return .integer (← powerFrom (Integer.productAt line) 1 b (← e.toExponentAt line))
      else .ok (.float (b.toFloat.pow e.toFloat))
    | base, exponent =>
      if base.isNumber && exponent.isNumber then do
        return .float ((← base.realAt line).pow (← exponent.realAt line))
      else mismatchAt line .pow base exponent

section

variable (line : Nat)

/-- Arithmetic on integers fails on the line. -/
theorem integerArithmeticAt_eq (op : BinaryOp) (a b : Integer) :
    integerArithmeticAt line op a b = stamp line (integerArithmetic op a b) := by
  cases op with
  | add => exact a.sumAt_eq line b
  | sub => exact a.differenceAt_eq line b
  | mul => exact a.productAt_eq line b
  | div => exact a.floorDivAt_eq line b
  | mod => exact a.floorModAt_eq line b
  | _ => rfl

/-- Arithmetic on floats fails on the line. -/
theorem floatArithmeticAt_eq (op : BinaryOp) (x y : Float) :
    floatArithmeticAt line op x y = stamp line (floatArithmetic op x y) := by
  cases op with
  | div => exact ite_eq_stamp rfl rfl
  | mod => exact ite_eq_stamp rfl rfl
  | _ => rfl

/-- Arithmetic on numbers and texts fails on the line. -/
theorem scalarAt_eq (op : BinaryOp) (left right : Value) :
    scalarAt line op left right = stamp line (scalar op left right) := by
  have hnumbers : (if left.isNumber && right.isNumber then
      do return Value.float (← floatArithmeticAt line op (← left.realAt line) (← right.realAt line))
      else mismatchAt line op left right) =
        stamp line (if left.isNumber && right.isNumber then
          do return Value.float (← floatArithmetic op (← left.real) (← right.real))
          else mismatch op left right) :=
    ite_eq_stamp (bind_eq_stamp (left.realAt_eq line) fun x => bind_eq_stamp (right.realAt_eq line) fun y =>
      map_eq_stamp (floatArithmeticAt_eq line op x y) _) rfl
  cases left with
  | integer a =>
    cases right with
    | integer b => exact map_eq_stamp (integerArithmeticAt_eq line op a b) _
    | _ => exact hnumbers
  | string a =>
    cases right with
    | string b => exact ite_eq_stamp rfl rfl
    | _ => exact hnumbers
  | _ => exact hnumbers

/-- Operators on the bits of integers fail on the line. -/
theorem integerBitsAt_eq (op : BinaryOp) (a b : Integer) :
    integerBitsAt line op a b = stamp line (integerBits op a b) := by
  cases op with
  | shiftLeft => exact a.shiftLeftAt_eq line b
  | shiftRight => exact a.shiftRightAt_eq line b
  | _ => rfl

/-- Bitwise operators fail on the line. -/
theorem bitwiseAt_eq (op : BinaryOp) (left right : Value) :
    bitwiseAt line op left right = stamp line (bitwise op left right) := by
  cases left with
  | integer a =>
    cases right with
    | integer b => exact map_eq_stamp (integerBitsAt_eq line op a b) _
    | _ => rfl
  | boolean a =>
    cases right with
    | boolean b => cases op <;> rfl
    | _ => rfl
  | _ => rfl

/-- Comparisons fail on the line. -/
theorem comparisonAt_eq (op : BinaryOp) (left right : Value) :
    comparisonAt line op left right = stamp line (comparison op left right) := by
  cases op with
  | equal | notEqual => rfl
  | _ =>
    unfold comparisonAt comparison
    cases order? left right <;> rfl

/-- Repeated squaring fails on the line if products do. -/
theorem powerFrom_eq_stamp {α : Type} {product : α → α → Except Cause α} {productAt : α → α → LocatedResult α}
    (h : ∀ a b, productAt a b = stamp line (product a b)) (result square : α) (n : Nat) :
    powerFrom productAt result square n = stamp line (powerFrom product result square n) := by
  induction n using Nat.strongRecOn generalizing result square with
  | ind n ih =>
    rw [powerFrom, powerFrom]
    by_cases hn : n = 0
    · rw [dif_pos hn, dif_pos hn]
      rfl
    · rw [dif_neg hn, dif_neg hn]
      -- The rest of the computation is the same whether the exponent is odd or even.
      have hrest (result : α) :
          (if n / 2 = 0 then pure result else do powerFrom productAt result (← productAt square square) (n / 2)) =
            stamp line (if n / 2 = 0 then pure result
              else do powerFrom product result (← product square square) (n / 2)) :=
        ite_eq_stamp rfl (bind_eq_stamp (h _ _) fun square' => ih (n / 2) (by omega) result square')
      exact ite_eq_stamp (bind_eq_stamp (h _ _) hrest) (hrest result)

/-- Powers fail on the line. -/
theorem powerAt_eq (base exponent : Value) : powerAt line base exponent = stamp line (power base exponent) := by
  have hnumbers : (if base.isNumber && exponent.isNumber then
      do return Value.float ((← base.realAt line).pow (← exponent.realAt line))
      else mismatchAt line .pow base exponent) =
        stamp line (if base.isNumber && exponent.isNumber then
          do return Value.float ((← base.real).pow (← exponent.real))
          else mismatch .pow base exponent) :=
    ite_eq_stamp (bind_eq_stamp (base.realAt_eq line) fun _ => bind_eq_stamp (exponent.realAt_eq line) fun _ => rfl) rfl
  cases base with
  | matrix rows =>
    cases exponent with
    | integer e =>
      refine ite_eq_stamp ?_ rfl
      exact bind_eq_stamp (e.toExponentAt_eq line) fun n =>
        map_eq_stamp (powerFrom_eq_stamp line (IntMatrix.productAt_eq line) _ _ n) _
    | _ => exact hnumbers
  | integer b =>
    cases exponent with
    | integer e =>
      refine ite_eq_stamp ?_ rfl
      exact bind_eq_stamp (e.toExponentAt_eq line) fun n =>
        map_eq_stamp (powerFrom_eq_stamp line (Integer.productAt_eq line) _ _ n) _
    | _ => exact hnumbers
  | _ => exact hnumbers

end

end Operation

/-! ## Operators -/

/-- The result of a binary operator. -/
def BinaryOp.applyAt (line : Nat) (op : BinaryOp) (left right : Value) : LocatedResult Value :=
  match op with
  | .add | .sub | .mul | .div | .mod =>
    if left.isArray || right.isArray then Operation.linearAt line op left right
    else Operation.scalarAt line op left right
  | .pow => Operation.powerAt line left right
  | .cross => Operation.crossAt line left right
  | .equal | .notEqual | .less | .greater | .lessEqual | .greaterEqual | .compare =>
    Operation.comparisonAt line op left right
  | .bitAnd | .bitOr | .bitXor | .shiftLeft | .shiftRight => Operation.bitwiseAt line op left right

/-- The result of a unary operator. -/
def UnaryOp.applyAt (line : Nat) (op : UnaryOp) (v : Value) : LocatedResult Value :=
  match op with
  | .not => do return .boolean (!(← v.asBooleanAt line))
  | .complement =>
    match v with
    | .integer n => .ok (.integer (~~~n))
    | v => .error { line, cause := .typeMismatch (.operand op v.kind) }

/-- Binary operators fail on the line. -/
theorem BinaryOp.applyAt_eq (line : Nat) (op : BinaryOp) (left right : Value) :
    op.applyAt line left right = stamp line (op.apply left right) := by
  have harithmetic : (if left.isArray || right.isArray then Operation.linearAt line op left right
      else Operation.scalarAt line op left right) =
        stamp line (if left.isArray || right.isArray then Operation.linear op left right
          else Operation.scalar op left right) :=
    ite_eq_stamp (Operation.linearAt_eq line op left right) (Operation.scalarAt_eq line op left right)
  have hcomparison := Operation.comparisonAt_eq line op left right
  have hbitwise := Operation.bitwiseAt_eq line op left right
  cases op with
  | add | sub | mul | div | mod => exact harithmetic
  | pow => exact Operation.powerAt_eq line left right
  | cross => exact Operation.crossAt_eq line left right
  | equal | notEqual | less | greater | lessEqual | greaterEqual | compare => exact hcomparison
  | bitAnd | bitOr | bitXor | shiftLeft | shiftRight => exact hbitwise

/-- Unary operators fail on the line. -/
theorem UnaryOp.applyAt_eq (line : Nat) (op : UnaryOp) (v : Value) :
    op.applyAt line v = stamp line (op.apply v) := by
  cases op with
  | not => exact map_eq_stamp (v.asBooleanAt_eq line) _
  | complement => cases v <;> rfl

end StackLang
