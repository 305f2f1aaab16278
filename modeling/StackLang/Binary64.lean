/-!
# Binary floating point numbers

A `Float` is an IEEE binary64 number. Its exact value is read off its bits: every finite one is a whole
multiple of 2^-1074, so values are counted in that unit and no fraction arises.
-/

namespace StackLang

/-- What a binary64 number stands for. -/
inductive Binary64 where
  | notANumber
  | infinite (negative : Bool)
  /-- A sign and `mantissa * 2 ^ exponent` units of 2^-1074. -/
  | finite (negative : Bool) (mantissa exponent : Nat)
deriving DecidableEq, Repr

namespace Binary64

/-- The exponent of two that turns units into ones. -/
def unitPlaces : Nat := 1074

/-- The leading bit of a normal mantissa, which stands above the 52 bits of the fraction field. -/
def hiddenBit : Nat := Nat.pow 2 52

/-- Reads the sign, exponent and fraction fields of a bit pattern. -/
def ofBits (bits : Nat) : Binary64 :=
  let negative := bits.testBit 63
  let exponent := bits / hiddenBit % 2048
  let fraction := bits % hiddenBit
  if exponent = 2047 then
    if fraction = 0 then infinite negative else notANumber
  else if exponent = 0 then finite negative fraction 0
  else finite negative (hiddenBit + fraction) (exponent - 1)

/-- What a float stands for. -/
def ofFloat (x : Float) : Binary64 := ofBits x.toBits.toNat

end Binary64

end StackLang
