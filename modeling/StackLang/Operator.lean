/-!
# Operators and words with a fixed spelling

Binary operators, unary operators, words that rearrange the stack and words that control evaluation.
-/

namespace StackLang

/-- The operators that take two values and leave one. -/
inductive BinaryOp where
  | add | sub | mul | div | pow | mod
  | equal | notEqual | greater | less | greaterEqual | lessEqual | compare
  | bitAnd | bitOr | bitXor | shiftLeft | shiftRight
  | cross
deriving DecidableEq, Repr

/-- The operators that take one value and leave one. -/
inductive UnaryOp where
  | not | complement
deriving DecidableEq, Repr

/-- The words that rearrange the stack without looking at its values. -/
inductive StackWord where
  | swap | drop | dup | rot | roll | rollDown
deriving DecidableEq, Repr

/-- The words that choose, transpose or force a value. -/
inductive ControlWord where
  | ifElse | transpose | eval
deriving DecidableEq, Repr

/-- The spelling of a binary operator. -/
def BinaryOp.spelling : BinaryOp → String
  | add => "+"
  | sub => "-"
  | mul => "*"
  | div => "/"
  | pow => "**"
  | mod => "%"
  | equal => "=="
  | notEqual => "!="
  | greater => ">"
  | less => "<"
  | greaterEqual => ">="
  | lessEqual => "<="
  | compare => "<=>"
  | bitAnd => "&"
  | bitOr => "|"
  | bitXor => "^"
  | shiftLeft => "<<"
  | shiftRight => ">>"
  | cross => "x"

/-- The spelling of a unary operator. -/
def UnaryOp.spelling : UnaryOp → String
  | not => "!"
  | complement => "~"

/-- The spelling of a stack word. -/
def StackWord.spelling : StackWord → String
  | swap => "SWAP"
  | drop => "DROP"
  | dup => "DUP"
  | rot => "ROT"
  | roll => "ROLL"
  | rollDown => "ROLLD"

/-- The spelling of a control word. -/
def ControlWord.spelling : ControlWord → String
  | ifElse => "IFELSE"
  | transpose => "TRANSP"
  | eval => "EVAL"

/-- Every binary operator. -/
def BinaryOp.all : List BinaryOp :=
  [add, sub, mul, div, pow, mod, equal, notEqual, greater, less, greaterEqual, lessEqual, compare,
    bitAnd, bitOr, bitXor, shiftLeft, shiftRight, cross]

/-- Every unary operator. -/
def UnaryOp.all : List UnaryOp := [not, complement]

/-- Every stack word. -/
def StackWord.all : List StackWord := [swap, drop, dup, rot, roll, rollDown]

/-- Every control word. -/
def ControlWord.all : List ControlWord := [ifElse, transpose, eval]

end StackLang
