import StackLang.Binary64

/-!
# The shortest decimal of a binary floating point number

Among the decimals that round to a positive binary64 number, the ones with the fewest digits are chosen, of
these the nearest to the number, and of two equally near ones the larger. All arithmetic is exact.
-/

namespace StackLang

/-- The number `digits * 10 ^ place`. -/
structure Decimal where
  digits : Nat
  place : Int
deriving DecidableEq, Repr

namespace Binary64

/-- A positive number with the interval of numbers that round to it, as numerators over one denominator. -/
structure Rounding where
  low : Nat
  value : Nat
  high : Nat
  denominator : Nat
  /-- Whether the ends of the interval round to the number as well. -/
  closed : Bool

/-- The numbers that round to `mantissa * 2 ^ exponent` units. Ends round to an even mantissa, and the
neighbour below the least mantissa of a binade is half as far away as the one above. -/
def rounding (mantissa exponent : Nat) : Rounding where
  low := if mantissa = hiddenBit ∧ 0 < exponent then (4 * mantissa - 1) * Nat.pow 2 exponent
    else (4 * mantissa - 2) * Nat.pow 2 exponent
  value := 4 * mantissa * Nat.pow 2 exponent
  high := (4 * mantissa + 2) * Nat.pow 2 exponent
  denominator := 4 * Nat.pow 2 unitPlaces
  closed := mantissa % 2 = 0

/-- The interval counted in units of `10 ^ place`. -/
def Rounding.scale (r : Rounding) (place : Int) : Rounding :=
  if 0 ≤ place then { r with denominator := r.denominator * Nat.pow 10 place.toNat }
  else
    let factor := Nat.pow 10 (-place).toNat
    { r with low := r.low * factor, value := r.value * factor, high := r.high * factor }

/-- Whether a whole number lies in the interval. -/
def Rounding.holds (r : Rounding) (n : Nat) : Bool :=
  let point := n * r.denominator
  if r.closed then r.low ≤ point && point ≤ r.high else r.low < point && point < r.high

/-- The whole number in the interval that is nearest to the value, if one next to the value is in it. -/
def Rounding.nearest? (r : Rounding) : Option Nat :=
  let below := r.value / r.denominator
  match r.holds below, r.holds (below + 1) with
  | true, true =>
    some (if 2 * (r.value - below * r.denominator) < r.denominator then below else below + 1)
  | true, false => some below
  | false, true => some (below + 1)
  | false, false => none

/-- The least `place` with the number below `10 ^ place`, for numbers from `10 ^ -340` on. -/
def Rounding.leadingPlace (r : Rounding) : Int :=
  (Nat.toDigits 10 (r.value * Nat.pow 10 340 / r.denominator)).length - 340

/-- The first decimal found with `count` digits or more, up to `count + tries` digits. -/
def Rounding.shortestFrom (r : Rounding) (leading : Int) (count : Nat) : Nat → Option Decimal
  | 0 => none
  | tries + 1 =>
    let place := leading - count
    match (r.scale place).nearest? with
    | some digits => some { digits, place }
    | none => r.shortestFrom leading (count + 1) tries

/-- The shortest decimal that rounds to `mantissa * 2 ^ exponent` units. Seventeen digits always suffice. -/
def shortest (mantissa exponent : Nat) : Decimal :=
  let r := rounding mantissa exponent
  (r.shortestFrom r.leadingPlace 1 17).getD { digits := 0, place := 0 }

end Binary64

end StackLang
