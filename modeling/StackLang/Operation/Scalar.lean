import StackLang.Operation.Integer

/-!
# Arithmetic on numbers and texts

Two integers give an exact integer. If one operand is a float the other is converted and the result is a
float. Two strings can be joined.
-/

namespace StackLang

/-- A number as a float. -/
def Value.real : Value → Except Cause Float
  | .float x => .ok x
  | .integer n => .ok n.toFloat
  | v => .error (.typeMismatch (.notANumber v.kind))

/-- A value that has to be an integer. -/
def Value.asInteger : Value → Except Cause Integer
  | .integer n => .ok n
  | _ => .error .expectedInteger

/-- A value that has to be a truth value. -/
def Value.asBoolean : Value → Except Cause Bool
  | .boolean b => .ok b
  | _ => .error .expectedBoolean

namespace Operation

/-- The failure of an operator that does not apply to its operands. -/
def mismatch {α : Type} (op : BinaryOp) (left right : Value) : Except Cause α :=
  .error (.typeMismatch (.operands op left.kind right.kind))

/-- The remainder of the float quotient rounded towards minus infinity. -/
def floatMod (x y : Float) : Float := x - y * (x / y).floor

/-- Arithmetic on integers. -/
def integerArithmetic (op : BinaryOp) (a b : Integer) : Except Cause Integer :=
  match op with
  | .add => a.sum b
  | .sub => a.difference b
  | .mul => a.product b
  | .div => a.floorDiv b
  | .mod => a.floorMod b
  | _ => .error (.defect .unroutedOperator)

/-- Arithmetic on floats. A divisor of either zero is refused. -/
def floatArithmetic (op : BinaryOp) (x y : Float) : Except Cause Float :=
  match op with
  | .add => .ok (x + y)
  | .sub => .ok (x - y)
  | .mul => .ok (x * y)
  | .div => if y == 0.0 then .error .divisionByZero else .ok (x / y)
  | .mod => if y == 0.0 then .error .divisionByZero else .ok (floatMod x y)
  | _ => .error (.defect .unroutedOperator)

/-- Arithmetic on two values that are neither vectors nor matrices. -/
def scalar (op : BinaryOp) (left right : Value) : Except Cause Value :=
  match left, right with
  | .integer a, .integer b => do return .integer (← integerArithmetic op a b)
  | .string a, .string b => if op = .add then .ok (.string (a ++ b)) else mismatch op left right
  | left, right =>
    if left.isNumber && right.isNumber then do
      return .float (← floatArithmetic op (← left.real) (← right.real))
    else mismatch op left right

end Operation

end StackLang
