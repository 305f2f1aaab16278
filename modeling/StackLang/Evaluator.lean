import StackLang.Literal.Lambda
import StackLang.Literal.Number
import StackLang.Operation
import StackLang.Stack

/-!
# Evaluation

A token is evaluated against the stack. Forcing a text and invoking a lambda evaluate tokens one nesting
level deeper, and only so many levels are available. The evaluator of a level is built from the evaluator of
the level below, so the number of levels left bounds the recursion and nothing else is needed to end it.
Failures are bare causes here. The evaluation that programs run is `evalTokenAt`, which hands the line of a
token down and builds every failure on it; without the lines it is this one.
-/

namespace StackLang

namespace StackStep

/-- Continues with a result that does not depend on the stack. -/
def lift {α : Type} : Except Cause α → StackStep α
  | .ok a => pure a
  | .error cause => throw cause

end StackStep

open StackStep (lift)
open Stack (push pop popN popPair peek require rotateUp rotateDown)

/-- Replaces the top two values by the result of an operator. -/
def BinaryOp.run (op : BinaryOp) : StackStep Unit := do
  let (left, right) ← popPair
  push (← lift (op.apply left right))

/-- Replaces the top value by the result of an operator. -/
def UnaryOp.run (op : UnaryOp) : StackStep Unit := do
  push (← lift (op.apply (← pop)))

/-- Removes a number of stack positions from the stack. -/
def popCount : StackStep Nat := do
  lift (← lift (← pop).asInteger).toCount

/-- Rearranges the stack. -/
def StackWord.run : StackWord → StackStep Unit
  | .swap => rotateUp 2
  | .drop => discard pop
  | .dup => do push (← peek)
  | .rot => rotateUp 3
  | .roll => do rotateUp (← popCount)
  | .rollDown => do rotateDown (← popCount)

/-- Replaces a condition and two values by the value that the condition chooses. -/
def choose : StackStep Unit := do
  require 3
  match (← get).values[2]? with
  | none => throw (.defect .negativeCount)
  | some (.boolean _) =>
    match ← popN 3 with
    | [whenFalse, whenTrue, condition] =>
      push (if ← lift condition.asBoolean then whenTrue else whenFalse)
    | popped => throw (.stackUnderflow 3 popped.length)
  | some _ => throw .expectedBoolean

/-- Replaces a matrix by its transpose. -/
def transposeTop : StackStep Unit := do
  match ← pop with
  | .matrix rows => push (.matrix (IntMatrix.transpose rows))
  | v => throw (.typeMismatch (.transposition v.kind))

/-- What a nesting level offers to the level above it. -/
structure Level where
  /-- Evaluates a token on this level. -/
  token : String → StackStep Unit
  /-- Evaluates a token one level deeper. -/
  force : String → StackStep Unit

/-- Goes one level deeper if there is a level below. -/
def nested (limit : Nat) (below? : Option Level) (body : Level → StackStep Unit) : StackStep Unit :=
  match below? with
  | none => throw (.recursionLimit limit)
  | some level => body level

/-- The word by which a lambda's body refers to the lambda itself. -/
def selfWord : String := "SELF"

/-- Evaluates a word of a lambda's body. A symbol or lambda that a parameter stands for is forced. -/
def lambdaWord (level : Level) (literal : String) (arguments : List Value) (word : String) : StackStep Unit :=
  if word = selfWord then push (.lambda literal)
  else
    match Literal.parameterIndex? word.toList with
    | none => level.token word
    | some index =>
      match arguments[index]? with
      | none => throw (.unboundParameter index arguments.length)
      | some (.symbol text) | some (.lambda text) => level.force text
      | some v => push v

/-- Invokes a lambda literal: takes its arguments off the stack, the first parameter from the top, and
evaluates the words of its body one level deeper. -/
def invoke (limit : Nat) (below? : Option Level) (literal : String) : StackStep Unit := do
  let lambda ← lift (Literal.readLambda literal.toList)
  let words ← lift (Literal.readBody literal.toList lambda.body)
  nested limit below? fun level => do
    let arguments ← popN lambda.arity
    words.forM (lambdaWord level literal arguments)

/-- Takes a value off the stack and evaluates it: lambdas are invoked, the texts of symbols and strings are
evaluated as tokens, and all other values are put back. -/
def evalTop (limit : Nat) (below? : Option Level) : StackStep Unit := do
  match ← pop with
  | .lambda literal => invoke limit below? literal
  | .symbol text | .string text => nested limit below? fun level => level.token text
  | v => push v

/-- Chooses, transposes or forces. -/
def ControlWord.run (limit : Nat) (below? : Option Level) : ControlWord → StackStep Unit
  | .ifElse => choose
  | .transpose => transposeTop
  | .eval => evalTop limit below?

/-- Evaluates a word that has the given text. -/
def Word.run (limit : Nat) (below? : Option Level) (cs : List Char) : Word → StackStep Unit
  | .integer => do push (.integer (← lift (Literal.readInteger cs)))
  | .float => push (.float (Literal.readFloat cs))
  | .boolean b => push (.boolean b)
  | .binary op => op.run
  | .unary op => op.run
  | .stack word => word.run
  | .control word => word.run limit below?

/-- The contents of a string literal, which may lack its quotes. -/
def stringContents (cs : List Char) : List Char := (Text.between? '"' '"' cs).getD cs

/-- Evaluates a token above the given level. Brackets and braces start literals, a quotation mark starts a
quoted token, and a text that is no word stands for itself. -/
def evalToken (limit : Nat) (below? : Option Level) (text : String) : StackStep Unit :=
  match text.toList with
  | '[' :: rest => do push (← lift (Literal.readArray ('[' :: rest)))
  | '\x7b' :: _ => invoke limit below? text
  | '\'' :: quoted =>
    if Word.isInteger quoted then do push (.integer (← lift (Literal.readInteger quoted)))
    else push (.symbol (String.ofList quoted))
  | cs =>
    match Word.ofChars? cs with
    | some word => word.run limit below? cs
    | none => push (.string (String.ofList (stringContents cs)))

/-- The level that is reached by going one deeper when `n` levels are left. -/
def levelBelow? (limit : Nat) : (n : Nat) → Option Level
  | 0 => none
  | n + 1 =>
    some {
      token := fun text => evalToken limit (levelBelow? limit n) text
      force := fun text => nested limit (levelBelow? limit n) fun level => level.token text }

end StackLang
