import StackLang.Machine

/-!
# Programs

A program is cut into tokens as a whole, and then its tokens are evaluated from an empty stack. Its output is
the final stack, one line for each value, bottom first.
-/

namespace StackLang

/-- Why a program has no result. -/
inductive ProgramError where
  | scan (error : Located ScanCause)
  | eval (error : Located Cause)
deriving DecidableEq, Repr

/-- The message of a program's error. -/
def ProgramError.message : ProgramError → String
  | scan error => error.cause.message error.line
  | eval error => error.cause.message error.line

namespace Program

/-- The values that a program leaves on the stack, bottom first. -/
def result (limits : Limits) (source : String) : Except ProgramError (List Value) :=
  match Token.ofSource source with
  | .error error => .error (.scan error)
  | .ok tokens =>
    match evalTokens limits.depth limits.depth tokens (Stack.empty limits.stackSize) with
    | .error error _ => .error (.eval error)
    | .ok _ stack => .ok stack.toList

/-- The lines that a program prints. -/
def output (limits : Limits) (source : String) : Except ProgramError (List String) :=
  (result limits source).map fun values => values.map Value.text

end Program

end StackLang
