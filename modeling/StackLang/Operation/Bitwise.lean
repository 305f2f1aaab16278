import StackLang.Operation.Scalar

/-!
# Bitwise operators

The operators on the bits of integers, of which three also combine truth values.
-/

namespace StackLang.Operation

/-- A bitwise operator on integers. -/
def integerBits (op : BinaryOp) (a b : Integer) : Except Cause Integer :=
  match op with
  | .bitAnd => .ok (a &&& b)
  | .bitOr => .ok (a ||| b)
  | .bitXor => .ok (a ^^^ b)
  | .shiftLeft => a.shiftLeft b
  | .shiftRight => a.shiftRight b
  | _ => .error (.defect .unroutedOperator)

/-- The result of a bitwise operator. -/
def bitwise (op : BinaryOp) (left right : Value) : Except Cause Value :=
  match left, right with
  | .integer a, .integer b => do return .integer (← integerBits op a b)
  | .boolean a, .boolean b =>
    match op with
    | .bitAnd => .ok (.boolean (a && b))
    | .bitOr => .ok (.boolean (a || b))
    | .bitXor => .ok (.boolean (a ^^ b))
    | op => mismatch op left right
  | left, right => mismatch op left right

end StackLang.Operation
