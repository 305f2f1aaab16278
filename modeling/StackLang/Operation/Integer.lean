import StackLang.Failure

/-!
# Integer arithmetic

Exact arithmetic on integers that reports a result out of range as overflow. Division and remainder round
towards minus infinity, so a remainder is zero or has the sign of the divisor. A shift by a negative amount
is the opposite shift.
-/

namespace StackLang.Integer

/-- The exact sum. -/
def sum (a b : Integer) : Except Cause Integer := orOverflow (a.add? b)

/-- The exact difference. -/
def difference (a b : Integer) : Except Cause Integer := orOverflow (a.sub? b)

/-- The exact product. -/
def product (a b : Integer) : Except Cause Integer := orOverflow (a.mul? b)

/-- The quotient rounded towards minus infinity: the quotient rounded towards zero, less one when a
remainder is left and the signs differ. -/
def floorDiv (a b : Integer) : Except Cause Integer :=
  if b = 0 then .error .divisionByZero
  else do
    let quotient ← orOverflow (a.quot? b)
    let remainder ← orDefect .unexpectedOverflow (a.rem? b)
    if remainder ≠ 0 ∧ ((a < 0) ≠ (b < 0)) then orDefect .unexpectedOverflow (quotient.sub? 1)
    else return quotient

/-- The remainder of the quotient rounded towards minus infinity. -/
def floorMod (a b : Integer) : Except Cause Integer :=
  if b = 0 then .error .divisionByZero
  else
    let remainder := (a.rem? b).getD 0
    if remainder ≠ 0 ∧ ((remainder < 0) ≠ (b < 0)) then orDefect .unexpectedOverflow (remainder.add? b)
    else .ok remainder

/-- The product with a power of two, or the quotient for a negative amount. -/
def shiftLeft (a amount : Integer) : Except Cause Integer :=
  if amount < 0 then .ok (a.shiftDown amount.toInt.natAbs) else orOverflow (a.shiftUp? amount.toInt.natAbs)

/-- The quotient by a power of two rounded towards minus infinity, or the product for a negative amount. -/
def shiftRight (a amount : Integer) : Except Cause Integer :=
  if amount < 0 then do shiftLeft a (← orOverflow amount.neg?) else .ok (a.shiftDown amount.toInt.natAbs)

/-- An integer as a number of stack positions. -/
def toCount (n : Integer) : Except Cause Nat :=
  if n < 0 then .error (.invalidArgument (.negativeCount n)) else .ok n.toInt.toNat

/-- An integer as an exponent, which has to be below 2^32. -/
def toExponent (n : Integer) : Except Cause Nat :=
  if n < 0 then .error (.invalidArgument (.negativeInteger n))
  else if n.toInt.toNat < Nat.pow 2 32 then .ok n.toInt.toNat
  else .error .literalTooLarge

/-- The integer that stands for an order: -1, 0 or 1. -/
def ofOrdering : Ordering → Integer
  | .lt => -1
  | .eq => 0
  | .gt => 1

end StackLang.Integer
