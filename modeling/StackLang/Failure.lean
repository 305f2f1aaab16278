import StackLang.Operator
import StackLang.Value

/-!
# Failures

The ways in which reading or evaluating a program fails. A cause says what went wrong; a located cause also
says on which line. The wording of every message stands here and nowhere else.

Defects are faults of the interpreter itself, as opposed to faults of the program it runs. They are outcomes like
any other, so that their absence can be stated.
-/

namespace StackLang

/-- The ways in which the interpreter could be at fault. -/
inductive Defect where
  /-- An operator reached a family of operators that does not hold it. -/
  | unroutedOperator
  /-- A count went below zero. -/
  | negativeCount
  /-- An integer left its range in a step that takes no account of it. -/
  | unexpectedOverflow
  /-- A position lay outside its list. -/
  | outOfBounds
  /-- A text was cut where it cannot be. -/
  | badOffset (fault : Text.OffsetFault)
deriving DecidableEq, Repr

/-- The literals that a line can leave open. -/
inductive OpenLiteral where
  | string | array | lambda
deriving DecidableEq, Repr

/-- Why a line cannot be cut into tokens. -/
inductive ScanCause where
  | unterminated (literal : OpenLiteral)
  | defect (fault : Defect)
deriving DecidableEq, Repr

/-- Why an operation does not apply to the values it found. -/
inductive Mismatch where
  | operands (op : BinaryOp) (left right : Kind)
  | operand (op : UnaryOp) (found : Kind)
  | comparison (left right : Kind)
  | crossProduct (left right : Kind)
  | nonSquarePower (base : Kind)
  | transposition (found : Kind)
  | notANumber (found : Kind)
deriving DecidableEq, Repr

/-- Why an array or lambda literal cannot be read. -/
inductive Malformation where
  | noBrackets
  | noRowStart
  | noRowEnd
  | unequalRows
  | noRowSeparator
  | notAnInteger (entry : String)
  | tooFewIntegers
  | noBraces
  | noBar
  | badParameterCount
  | unreadableBody (literal : OpenLiteral)
deriving DecidableEq, Repr

/-- Why an integer does not serve as an argument. -/
inductive BadArgument where
  | negativeInteger (n : Integer)
  | negativeCount (n : Integer)
deriving DecidableEq, Repr

/-- Why evaluation fails. -/
inductive Cause where
  | stackUnderflow (needed found : Nat)
  | stackOverflow (limit : Nat)
  | typeMismatch (mismatch : Mismatch)
  | malformedLiteral (literal : String) (malformation : Malformation)
  | expectedBoolean
  | expectedInteger
  | divisionByZero
  | overflow
  | literalTooLarge
  | invalidArgument (argument : BadArgument)
  | unboundParameter (index arity : Nat)
  | recursionLimit (limit : Nat)
  | defect (fault : Defect)
deriving DecidableEq, Repr

/-- A cause together with the line it arose on. -/
structure Located (ε : Type) where
  line : Nat
  cause : ε
deriving DecidableEq, Repr

/-- The text of a defect. -/
def Defect.text : Defect → String
  | unroutedOperator => "unrouted operator"
  | negativeCount => "negative count"
  | unexpectedOverflow => "unexpected overflow"
  | outOfBounds => "position out of bounds"
  | badOffset .pastEnd => "offset past the end of a text"
  | badOffset .insideCharacter => "offset inside a character"

/-- What an open literal is called, and how it would be closed. -/
def OpenLiteral.text : OpenLiteral → String
  | string => "Unterminated string literal, expected a closing '\"'."
  | array => "Unterminated vector literal, expected a closing ']'."
  | lambda => "Unterminated lambda literal, expected a closing '\x7d'."

/-- A message with its line. -/
def onLine (line : Nat) (text : String) : String := s!"Error on line {line}: " ++ text

/-- The message of a line that cannot be cut into tokens. -/
def ScanCause.message (line : Nat) : ScanCause → String
  | unterminated literal => onLine line literal.text
  | defect fault => onLine line s!"Defect: {fault.text}."

/-- The details of a mismatch. -/
def Mismatch.text : Mismatch → String
  | operands op left right => s!"cannot apply {op.spelling} to {left.text} and {right.text}"
  | operand op found => s!"cannot apply {op.spelling} to {found.text}"
  | comparison left right => s!"cannot compare {left.text} with {right.text}"
  | crossProduct left right =>
    s!"the cross product needs two vectors of length 3, found {left.text} and {right.text}"
  | nonSquarePower base => s!"cannot raise a non-square {base.text} to a power"
  | transposition found => s!"cannot transpose {found.text}"
  | notANumber found => s!"expected a number, found {found.text}"

/-- The details of a malformed literal. The fault of an unreadable body is on the literal's own line. -/
def Malformation.text (line : Nat) : Malformation → String
  | noBrackets => "expected surrounding brackets"
  | noRowStart => "expected '[' to open a row"
  | noRowEnd => "expected ']' to close a row"
  | unequalRows => "matrix rows must all have the same length"
  | noRowSeparator => "expected ',' between rows"
  | notAnInteger entry => "'" ++ entry ++ "' is not an integer"
  | tooFewIntegers => "a vector needs at least two integers"
  | noBraces => "expected surrounding braces"
  | noBar => "expected '|' after the parameter count"
  | badParameterCount => "the parameter count must be an unsigned integer"
  | unreadableBody literal => "unreadable body: " ++ (ScanCause.unterminated literal).message line

/-- The details of a bad argument. -/
def BadArgument.text : BadArgument → String
  | negativeInteger n => s!"expected a non-negative integer, found {n.text}"
  | negativeCount n => s!"expected a non-negative count, found {n.text}"

/-- The message of a failed evaluation. -/
def Cause.message (line : Nat) (cause : Cause) : String :=
  onLine line <| match cause with
    | stackUnderflow needed found => s!"Stack underflow. Needed {needed} values, but found {found}."
    | stackOverflow limit => s!"Stack overflow. The stack may hold at most {limit} values."
    | typeMismatch mismatch => s!"Type mismatch: {mismatch.text}."
    | malformedLiteral literal malformation =>
      s!"Malformed literal '{literal}': {malformation.text line}."
    | expectedBoolean => "Expected boolean."
    | expectedInteger => "Expected integer."
    | divisionByZero => "Division by zero."
    | overflow => "Integer overflow while trying to compute result."
    | literalTooLarge => "Literal is too large."
    | invalidArgument argument => s!"Invalid argument: {argument.text}."
    | unboundParameter index arity =>
      s!"Parameter x{index} is not bound by a lambda taking {arity} arguments."
    | recursionLimit limit => s!"Recursion limit of {limit} nested evaluations exceeded."
    | defect fault => s!"Defect: {fault.text}."

/-- A result that is missing only through a defect. -/
def orDefect {α : Type} (fault : Defect) : Option α → Except Cause α
  | some a => .ok a
  | none => .error (.defect fault)

/-- A result that is missing only when an integer leaves its range. -/
def orOverflow {α : Type} : Option α → Except Cause α
  | some a => .ok a
  | none => .error .overflow

end StackLang
