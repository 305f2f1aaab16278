import StackLang.Located.Evaluator

/-!
# Machines

A machine is a stack with a limit on nesting. It takes calls one after another; a call that fails leaves
behind what it did to the stack up to then, and the next call starts from there on the outermost level.
-/

namespace StackLang

/-- The limits that a program runs under. -/
structure Limits where
  /-- How deep evaluations may nest. -/
  depth : Nat := 256
  /-- How many values the stack may hold. -/
  stackSize : Nat := 65536
deriving DecidableEq, Repr

/-- Something that a machine can be asked to do. -/
inductive Call where
  | token (text : String)
  | program (tokens : List Token)
  | lambda (literal : String)
  | binary (op : BinaryOp)
  | unary (op : UnaryOp)
  | stack (word : StackWord)
  | control (word : ControlWord)
  | push (v : Value)
  /-- A call on a line of its own that is made some levels deeper. -/
  | nested (levels line : Nat) (call : Call)

/-- Evaluates tokens in order, each on its own line, with `levels` levels left. -/
def evalTokens (limit levels : Nat) (tokens : List Token) : LocatedStep Unit :=
  tokens.forM fun token => evalTokenAt limit (locatedLevelBelow? limit levels) token.line token.text

/-- Carries out a call on a line, with `levels` levels left. The tokens of a program have lines of their own, and so
has a call that is made deeper: only a failure to go deeper is on the line of the nesting. -/
def Call.run (limit : Nat) : (line levels : Nat) → Call → LocatedStep Unit
  | line, levels, token text => evalTokenAt limit (locatedLevelBelow? limit levels) line text
  | _, levels, program tokens => evalTokens limit levels tokens
  | line, levels, lambda literal => invokeAt limit (locatedLevelBelow? limit levels) line literal
  | line, _, binary op => op.runAt line
  | line, _, unary op => op.runAt line
  | line, _, stack word => word.runAt line
  | line, levels, control word => word.runAt limit (locatedLevelBelow? limit levels) line
  | line, _, push v => Stack.pushAt line v
  | line, levels, nested deeper line' call =>
    if deeper ≤ levels then call.run limit line' (levels - deeper)
    else throw { line, cause := .recursionLimit limit }

/-- A stack that runs under limits. -/
structure Machine where
  limits : Limits
  stack : Stack

namespace Machine

/-- A machine with an empty stack. -/
def new (limits : Limits) : Machine where
  limits
  stack := Stack.empty limits.stackSize

/-- Makes a call on a line, and gives the outcome and the machine after it. -/
def call (m : Machine) (line : Nat) (c : Call) : Except (Located Cause) Unit × Machine :=
  match c.run m.limits.depth line m.limits.depth m.stack with
  | .ok _ stack => (.ok (), { m with stack })
  | .error e stack => (.error e, { m with stack })

end Machine

end StackLang
