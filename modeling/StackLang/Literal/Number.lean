import StackLang.Failure
import StackLang.Word

/-!
# Number literals

Integers that do not fit are refused. A float literal is the binary64 number nearest to it, and infinity if it
is too large.
-/

namespace StackLang.Literal

/-- Reads a decimal integer. -/
def readInteger (cs : List Char) : Except Cause Integer :=
  match Integer.parse? cs with
  | some n => .ok n
  | none => .error .literalTooLarge

/-- Reads digits, a point and digits, with an optional minus sign. -/
def readFloat (cs : List Char) : Float :=
  let (negative, digits) := match cs with
    | '-' :: rest => (true, rest)
    | rest => (false, rest)
  let whole := digits.takeWhile Char.isDigit
  let fraction := digits.drop (whole.length + 1)
  let magnitude := Float.ofScientific (Text.numeralValue (whole ++ fraction)) true fraction.length
  if negative then -magnitude else magnitude

end StackLang.Literal
