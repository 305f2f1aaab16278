import StackLang.Operator
import StackLang.Text

/-!
# Words

A token that is a number, a truth value, an operator or a word with a fixed spelling. A text is such a word
only as a whole: the longest word at its start has to be the entire text.
-/

namespace StackLang

/-- What a token's text can stand for besides a literal in brackets, braces or quotes. -/
inductive Word where
  | float
  | integer
  | boolean (b : Bool)
  | binary (op : BinaryOp)
  | unary (op : UnaryOp)
  | stack (word : StackWord)
  | control (word : ControlWord)
deriving DecidableEq, Repr

namespace Word

/-- The words with a fixed spelling. -/
def fixed : List (String × Word) :=
  [("true", boolean true), ("false", boolean false)]
    ++ BinaryOp.all.map (fun op => (op.spelling, binary op))
    ++ UnaryOp.all.map (fun op => (op.spelling, unary op))
    ++ StackWord.all.map (fun word => (word.spelling, stack word))
    ++ ControlWord.all.map (fun word => (word.spelling, control word))

/-- The length of an integer at the start of a text: an optional minus sign and digits. -/
def integerLength? (cs : List Char) : Option Nat :=
  let (sign, rest) := match cs with
    | '-' :: rest => (1, rest)
    | rest => (0, rest)
  match (rest.takeWhile Char.isDigit).length with
  | 0 => none
  | digits => some (sign + digits)

/-- The length of a float at the start of a text: an integer, a point and digits. -/
def floatLength? (cs : List Char) : Option Nat := do
  let whole ← integerLength? cs
  match cs.drop whole with
  | '.' :: rest =>
    match (rest.takeWhile Char.isDigit).length with
    | 0 => none
    | digits => some (whole + 1 + digits)
  | _ => none

/-- The words at the start of a text, each with its length. -/
def candidates (cs : List Char) : List (Word × Nat) :=
  ((floatLength? cs).map (float, ·)).toList ++ ((integerLength? cs).map (integer, ·)).toList
    ++ fixed.filterMap fun (spelling, word) =>
      if spelling.toList.isPrefixOf cs then some (word, spelling.length) else none

/-- The longest of some words. -/
def longest? : List (Word × Nat) → Option (Word × Nat)
  | [] => none
  | candidate :: rest =>
    match longest? rest with
    | none => some candidate
    | some best => if best.2 ≤ candidate.2 then some candidate else some best

/-- The word that a text is. -/
def ofChars? (cs : List Char) : Option Word :=
  match longest? (candidates cs) with
  | some (word, length) => if length = cs.length then some word else none
  | none => none

/-- Whether a text is an integer: an optional minus sign and digits, of any size. -/
def isInteger (cs : List Char) : Bool := ofChars? cs == some integer

end Word

end StackLang
