import StackLang.Integer
import StackLang.Binary64.Text

/-!
# Values

What the stack holds. Vectors and matrices are lists of integers and of rows. Symbols and lambdas are texts
that evaluation can force.
-/

namespace StackLang

/-- A list of integers. -/
abbrev IntVector := List Integer

/-- A list of rows. Its width is the length of its first row. -/
abbrev IntMatrix := List IntVector

/-- The number of rows and the length of the first row, zero if there is none. -/
def IntMatrix.shape (rows : IntMatrix) : Nat × Nat := (rows.length, (rows.head?.map List.length).getD 0)

/-- A value of the language. -/
inductive Value where
  | integer (n : Integer)
  | float (x : Float)
  | boolean (b : Bool)
  | string (s : String)
  | vector (entries : IntVector)
  | matrix (rows : IntMatrix)
  /-- A quoted token. -/
  | symbol (token : String)
  /-- A lambda literal, kept as its text. -/
  | lambda (literal : String)

/-- The kinds of value that messages tell apart. -/
inductive Kind where
  | integer | float | boolean | string
  | vector (length : Nat)
  | matrix (rows columns : Nat)
  | symbol | lambda
deriving DecidableEq, Repr

/-- The name of a kind in messages. -/
def Kind.text : Kind → String
  | integer => "integer"
  | float => "float"
  | boolean => "boolean"
  | string => "string"
  | vector length => s!"vector of length {length}"
  | matrix rows columns => s!"{rows}x{columns} matrix"
  | symbol => "symbol"
  | lambda => "lambda"

namespace Value

/-- The kind of a value. -/
def kind : Value → Kind
  | integer _ => .integer
  | float _ => .float
  | boolean _ => .boolean
  | string _ => .string
  | vector entries => .vector entries.length
  | matrix rows => .matrix (IntMatrix.shape rows).1 (IntMatrix.shape rows).2
  | symbol _ => .symbol
  | lambda _ => .lambda

/-- Whether a value is an integer or a float. -/
def isNumber : Value → Bool
  | integer _ | float _ => true
  | _ => false

/-- The text of a list of texts. -/
def listText (items : List String) : String := "[" ++ ", ".intercalate items ++ "]"

/-- The text of a vector or of a row. -/
def vectorText (entries : IntVector) : String := listText (entries.map Integer.text)

/-- The text of a value in the program's output. -/
def text : Value → String
  | integer n => n.text
  | float x => (Binary64.ofFloat x).text
  | boolean b => if b then "true" else "false"
  | string s => "\"" ++ s ++ "\""
  | vector entries => vectorText entries
  | matrix rows => listText (rows.map vectorText)
  | symbol token => token
  | lambda literal => literal

end Value

end StackLang
