import StackLang.Operation.Linear

/-!
# Powers

Powers of integers and of square matrices are computed by repeated squaring, and no square is formed that the
result does not need. Any other pair of numbers has a float power.
-/

namespace StackLang.Operation

/-- Multiplies `result` by the `n`-th power of `square`. -/
def powerFrom {ε α : Type} (product : α → α → Except ε α) (result square : α) (n : Nat) : Except ε α :=
  if h : n = 0 then .ok result
  else do
    let result ← if n % 2 = 1 then product result square else .ok result
    if n / 2 = 0 then return result else powerFrom product result (← product square square) (n / 2)
termination_by n
decreasing_by omega

/-- The power of two values. -/
def power (base exponent : Value) : Except Cause Value :=
  match base, exponent with
  | .matrix rows, .integer e => do
    let (height, width) := IntMatrix.shape rows
    if height = width then
      let e ← e.toExponent
      return .matrix (← powerFrom IntMatrix.product (IntMatrix.identity rows.length) rows e)
    else .error (.typeMismatch (.nonSquarePower base.kind))
  | base, exponent =>
    match base, exponent with
    | .integer b, .integer e =>
      if 0 ≤ e then do return .integer (← powerFrom Integer.product 1 b (← e.toExponent))
      else .ok (.float (b.toFloat.pow e.toFloat))
    | base, exponent =>
      if base.isNumber && exponent.isNumber then do
        return .float ((← base.real).pow (← exponent.real))
      else mismatch .pow base exponent

end StackLang.Operation
