import StackLang.Text

/-!
# Integers

The integers of the language are signed 64-bit words. Every operation here that could leave their range
gives nothing instead, so no result ever wraps.
-/

namespace StackLang

/-- A signed 64-bit integer. -/
abbrev Integer := Int64

namespace Integer

/-- The word that holds a number, if one does. -/
def ofInt? (n : Int) : Option Integer :=
  if h : Int64.minValue.toInt ≤ n ∧ n ≤ Int64.maxValue.toInt then some (Int64.ofIntLE n h.1 h.2) else none

/-- The sum, if it is in range. -/
def add? (a b : Integer) : Option Integer :=
  if a.toBitVec.saddOverflow b.toBitVec then none else some (a + b)

/-- The difference, if it is in range. -/
def sub? (a b : Integer) : Option Integer :=
  if a.toBitVec.ssubOverflow b.toBitVec then none else some (a - b)

/-- The product, if it is in range. -/
def mul? (a b : Integer) : Option Integer :=
  if a.toBitVec.smulOverflow b.toBitVec then none else some (a * b)

/-- The negation, if it is in range. -/
def neg? (a : Integer) : Option Integer :=
  if a.toBitVec.negOverflow then none else some (-a)

/-- The quotient rounded towards zero, if there is one and it is in range. -/
def quot? (a b : Integer) : Option Integer :=
  if b == 0 || a.toBitVec.sdivOverflow b.toBitVec then none else some (a / b)

/-- The remainder of the quotient rounded towards zero, if there is one and the quotient is in range. -/
def rem? (a b : Integer) : Option Integer :=
  if b == 0 || a.toBitVec.sdivOverflow b.toBitVec then none else some (a % b)

/-- The arithmetic shift to the right. Amounts from 64 on leave only the sign. -/
def shiftDown (a : Integer) (amount : Nat) : Integer :=
  if amount < 64 then a >>> Int64.ofNat amount else if a < 0 then -1 else 0

/-- The shift to the left, if shifting back restores the word. -/
def shiftUp? (a : Integer) (amount : Nat) : Option Integer :=
  if a == 0 then some 0
  else if amount < 64 then
    let shifted := a <<< Int64.ofNat amount
    if shifted >>> Int64.ofNat amount == a then some shifted else none
  else none

/-- Reads a decimal integer with an optional sign, if it is in range. -/
def parse? (cs : List Char) : Option Integer :=
  let (negative, digits) := match cs with
    | '-' :: rest => (true, rest)
    | '+' :: rest => (false, rest)
    | rest => (false, rest)
  if Text.isNumeral digits then
    let magnitude : Int := Text.numeralValue digits
    ofInt? (if negative then -magnitude else magnitude)
  else none

/-- The decimal text of an integer. -/
def text (a : Integer) : String :=
  String.ofList (if a < 0 then '-' :: Text.numeral a.toInt.natAbs else Text.numeral a.toInt.natAbs)

end Integer

end StackLang
