import StackLang.Binary64
import StackLang.Integer

/-!
# The order of numbers

Floats are ordered by their exact values. Infinities lie beyond all other values, and a number that is not a number
equals itself and lies above everything. The two zeros are equal.

An integer and a float are compared without rounding the integer. A float beyond the range of integers is decided by its
side. Any other float is compared by its whole part, and by what that leaves if the whole part is the integer.
-/

namespace StackLang

/-- Where a number stands: its rank among minus infinity, finite values, infinity and not a number, and
within the finite values its exact value in units of 2^-1074. -/
structure Standing where
  rank : Nat
  units : Int
deriving DecidableEq, Repr

namespace Standing

/-- The order of two standings: by rank, then by exact value. -/
def order (a b : Standing) : Ordering := (compare a.rank b.rank).then (compare a.units b.units)

/-- Where an integer stands. -/
def ofInteger (n : Integer) : Standing where
  rank := 1
  units := n.toInt * Nat.pow 2 Binary64.unitPlaces

/-- Where a binary64 number stands. -/
def ofBinary64 : Binary64 → Standing
  | .infinite true => { rank := 0, units := 0 }
  | .finite false mantissa exponent => { rank := 1, units := (mantissa * Nat.pow 2 exponent : Nat) }
  | .finite true mantissa exponent => { rank := 1, units := -(mantissa * Nat.pow 2 exponent : Nat) }
  | .infinite false => { rank := 2, units := 0 }
  | .notANumber => { rank := 3, units := 0 }

end Standing

namespace Binary64

/-- The order of two binary64 numbers. -/
def order (x y : Binary64) : Ordering := (Standing.ofBinary64 x).order (Standing.ofBinary64 y)

/-- The number 2^63, which is the first above every integer, or its negation, which is the least integer. -/
def integerBound (negative : Bool) : Binary64 := finite negative hiddenBit (unitPlaces + 11)

/-- The whole part of a finite number, which is its value rounded towards zero. -/
def whole (x : Binary64) : Int := (Standing.ofBinary64 x).units.tdiv (Nat.pow 2 unitPlaces)

/-- What the whole part of a finite number leaves, in units. It has the sign of the number. -/
def fraction (x : Binary64) : Int := (Standing.ofBinary64 x).units.tmod (Nat.pow 2 unitPlaces)

end Binary64

/-- The order of an integer and a binary64 number. -/
def Integer.orderBinary64 (n : Integer) (x : Binary64) : Ordering :=
  if x = .notANumber ∨ (x.order (.integerBound false)).isGE then .lt
  else if (x.order (.integerBound true)).isLT then .gt
  else (compare n (Int64.ofInt x.whole)).then (compare 0 x.fraction)

end StackLang
