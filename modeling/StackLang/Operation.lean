import StackLang.Operation.Bitwise
import StackLang.Operation.Comparison
import StackLang.Operation.Linear
import StackLang.Operation.Power

/-!
# Operators on values

Every operator belongs to one family of operations. Arithmetic with a vector or matrix on either side is
linear algebra.
-/

namespace StackLang

/-- Whether a value is a vector or a matrix. -/
def Value.isArray : Value → Bool
  | .vector _ | .matrix _ => true
  | _ => false

/-- The result of a binary operator. -/
def BinaryOp.apply (op : BinaryOp) (left right : Value) : Except Cause Value :=
  match op with
  | .add | .sub | .mul | .div | .mod =>
    if left.isArray || right.isArray then Operation.linear op left right
    else Operation.scalar op left right
  | .pow => Operation.power left right
  | .cross => Operation.cross left right
  | .equal | .notEqual | .less | .greater | .lessEqual | .greaterEqual | .compare =>
    Operation.comparison op left right
  | .bitAnd | .bitOr | .bitXor | .shiftLeft | .shiftRight => Operation.bitwise op left right

/-- The result of a unary operator. -/
def UnaryOp.apply (op : UnaryOp) (v : Value) : Except Cause Value :=
  match op with
  | .not => do return .boolean (!(← v.asBoolean))
  | .complement =>
    match v with
    | .integer n => .ok (.integer (~~~n))
    | v => .error (.typeMismatch (.operand op v.kind))

end StackLang
