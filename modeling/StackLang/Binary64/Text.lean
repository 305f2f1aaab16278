import StackLang.Binary64.Shortest
import StackLang.Text

/-!
# The text of a float

Floats are written with their shortest digits and always with a decimal point. Numbers from 10^-4 up to but
not including 10^16 are written positionally, all others with an exponent of at least two digits and a sign.
-/

namespace StackLang.Binary64

/-- The least power of ten of a leading digit that is written positionally. -/
def leastPositional : Int := -4

/-- The greatest power of ten of a leading digit that is written positionally. -/
def greatestPositional : Int := 15

/-- The digits of a decimal without trailing zeros, and the power of ten of the first of them. -/
def significant (d : Decimal) : List Char × Int :=
  let digits := Text.numeral d.digits
  ((digits.reverse.dropWhile (· == '0')).reverse, d.place + digits.length - 1)

/-- A fraction part, which has at least one digit. -/
def fractionPart (digits : List Char) : List Char := '.' :: if digits.isEmpty then ['0'] else digits

/-- Positional notation of digits whose first has the given power of ten. -/
def positional (digits : List Char) (power : Int) : List Char :=
  if power < 0 then '0' :: fractionPart (List.replicate (-power - 1).toNat '0' ++ digits)
  else
    let width := power.toNat + 1
    digits.take width ++ List.replicate (width - digits.length) '0' ++ fractionPart (digits.drop width)

/-- An exponent with its sign and at least two digits. -/
def exponentPart (power : Int) : List Char :=
  let digits := Text.numeral power.natAbs
  (if power < 0 then ['e', '-'] else ['e', '+']) ++ List.replicate (2 - digits.length) '0' ++ digits

/-- Exponent notation of digits whose first has the given power of ten. -/
def scientific (digits : List Char) (power : Int) : List Char :=
  digits.take 1 ++ fractionPart (digits.drop 1) ++ exponentPart power

/-- The text of a magnitude. -/
def magnitudeText (mantissa exponent : Nat) : List Char :=
  if mantissa = 0 then ['0', '.', '0']
  else
    let (digits, power) := significant (shortest mantissa exponent)
    if leastPositional ≤ power ∧ power ≤ greatestPositional then positional digits power
    else scientific digits power

/-- The text of a binary64 number. -/
def text : Binary64 → String
  | notANumber => "NaN"
  | infinite false => "Infinity"
  | infinite true => "-Infinity"
  | finite false mantissa exponent => String.ofList (magnitudeText mantissa exponent)
  | finite true mantissa exponent => String.ofList ('-' :: magnitudeText mantissa exponent)

end StackLang.Binary64
