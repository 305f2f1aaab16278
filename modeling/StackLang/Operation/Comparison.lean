import StackLang.Binary64.Order
import StackLang.Operation.Scalar

/-!
# Comparison

Numbers compare by their exact values and strings by their code points. Values of every other kind can only be
tested for equality, and values of different kinds are not equal.
-/

namespace StackLang

/-- Whether two values that are not numbers are of one kind and have the same contents. -/
def Value.sameContents : Value → Value → Bool
  | .boolean a, .boolean b => a == b
  | .string a, .string b => a == b
  | .vector a, .vector b => a == b
  | .matrix a, .matrix b => a == b
  | .symbol a, .symbol b => a == b
  | .lambda a, .lambda b => a == b
  | _, _ => false

namespace Operation

/-- The order of two numbers. -/
def numberOrder? (left right : Value) : Option Ordering :=
  match left, right with
  | .integer a, .integer b => some (compare a b)
  | .float x, .float y => some ((Binary64.ofFloat x).order (Binary64.ofFloat y))
  | .integer a, .float y => some (a.orderBinary64 (Binary64.ofFloat y))
  | .float x, .integer b => some (b.orderBinary64 (Binary64.ofFloat x)).swap
  | _, _ => none

/-- Whether two values are equal. -/
def equal (left right : Value) : Bool :=
  match numberOrder? left right with
  | some order => order.isEq
  | none => left.sameContents right

/-- The order of two numbers or of two strings. -/
def order? (left right : Value) : Option Ordering :=
  match left, right with
  | .string a, .string b => some (compare a b)
  | left, right => numberOrder? left right

/-- The result of a comparison operator. -/
def comparison (op : BinaryOp) (left right : Value) : Except Cause Value :=
  match op with
  | .equal => .ok (.boolean (equal left right))
  | .notEqual => .ok (.boolean (!equal left right))
  | op =>
    match order? left right with
    | none => .error (.typeMismatch (.comparison left.kind right.kind))
    | some order =>
      match op with
      | .less => .ok (.boolean order.isLT)
      | .greater => .ok (.boolean order.isGT)
      | .lessEqual => .ok (.boolean order.isLE)
      | .greaterEqual => .ok (.boolean order.isGE)
      | .compare => .ok (.integer (Integer.ofOrdering order))
      | _ => .error (.defect .unroutedOperator)

end Operation

end StackLang
