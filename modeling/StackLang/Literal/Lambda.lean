import StackLang.Literal.Array
import StackLang.Token

/-!
# Lambda literals

A lambda literal `{n | body}` gives the number of its parameters and a body of words. In the body, `x0`,
`x1` and so on stand for the parameters.
-/

namespace StackLang.Literal

open Text (trim cut? position? between?)

/-- A lambda literal taken apart. -/
structure Lambda where
  arity : Nat
  body : List Char
deriving DecidableEq, Repr

/-- Counts and parameter indices are below this bound. -/
def countBound : Nat := Nat.pow 2 64

/-- Takes a lambda literal apart at its first bar. -/
def readLambda (literal : List Char) : Except Cause Lambda :=
  match between? '\x7b' '\x7d' (trim literal) with
  | none => malformed literal .noBraces
  | some inner =>
    match position? '|' inner with
    | none => malformed literal .noBar
    | some bar =>
      let count := trim (inner.take bar)
      if Text.isNumeral count then
        if Text.numeralValue count < countBound then
          .ok { arity := Text.numeralValue count, body := trim (inner.drop (bar + 1)) }
        else .error .literalTooLarge
      else malformed literal .badParameterCount

/-- The words of a lambda's body. -/
def readBody (literal body : List Char) : Except Cause (List String) :=
  match Token.scan body with
  | .ok words => .ok words
  | .error (.unterminated kind) => malformed literal (.unreadableBody kind)
  | .error (.defect fault) => .error (.defect fault)

/-- The index of the parameter that a word refers to. -/
def parameterIndex? : List Char → Option Nat
  | 'x' :: digits =>
    if Text.isNumeral digits && Text.numeralValue digits < countBound then some (Text.numeralValue digits)
    else none
  | _ => none

end StackLang.Literal
