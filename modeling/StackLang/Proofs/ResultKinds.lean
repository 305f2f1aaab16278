import StackLang.Proofs.Shape

/-!
# What kinds of values operators make

Some values carry a text: strings, symbols and lambdas. Linear algebra, powers, comparison and the bitwise operators
never give such a value, and neither does an array literal. The one operator that makes a text is the sum of two
strings, which joins them. So no operator makes a symbol or a lambda.
-/

namespace StackLang

/-- Whether a value carries a text. -/
def Value.isText : Value → Bool
  | string _ | symbol _ | lambda _ => true
  | _ => false

/-- Truth values and integers carry no text. -/
theorem Value.isText_of_isDiscrete {v : Value} (h : v.isDiscrete = true) : v.isText = false := by
  cases v with
  | boolean b => rfl
  | integer n => rfl
  | _ => cases h

namespace Operation

/-- Linear algebra gives integers, vectors and matrices. -/
theorem linear_isText (op : BinaryOp) (left right : Value) :
    Yields (fun v => v.isText = false) (linear op left right) := by
  have hcase := linear_cases op left right
  generalize linear op left right = outcome at hcase
  cases hcase with
  | mismatch => exact .error _
  | _ => exact .bind_any fun _ => .ok rfl

/-- Powers are numbers and matrices. -/
theorem power_isText (base exponent : Value) : Yields (fun v => v.isText = false) (power base exponent) := by
  unfold power
  split
  · dsimp only
    split
    · exact .bind_any fun e => .bind_any fun rows => .ok rfl
    · exact .error _
  · split
    · split
      · exact .bind_any fun e => .bind_any fun n => .ok rfl
      · exact .ok rfl
    · split
      · exact .bind_any fun x => .bind_any fun y => .ok rfl
      · exact .error _

/-- A cross product is a vector. -/
theorem cross_isText (left right : Value) : Yields (fun v => v.isText = false) (cross left right) := by
  unfold cross
  split
  · split
    · exact .bind_any fun x => .bind_any fun y => .bind_any fun z => .ok rfl
    · exact .error _
  · exact .error _

end Operation

/-- Whether a value carries no text, or is made by joining two strings. -/
def Value.Joins (left right v : Value) : Prop :=
  v.isText = false ∨ ∃ a b, left = .string a ∧ right = .string b ∧ v = .string (a ++ b)

/-- Arithmetic on numbers and texts gives numbers, and joins strings. -/
theorem Operation.scalar_joins (op : BinaryOp) (left right : Value) :
    Yields (Value.Joins left right) (scalar op left right) := by
  unfold scalar
  split
  · exact .bind_any fun n => .ok (.inl rfl)
  · split
    · exact .ok (.inr ⟨_, _, rfl, rfl, rfl⟩)
    · exact .error _
  · split
    · exact .bind_any fun x => .bind_any fun y => .bind_any fun z => .ok (.inl rfl)
    · exact .error _

/-- Binary operators make no text, other than by joining two strings. -/
theorem BinaryOp.apply_joins (op : BinaryOp) (left right : Value) :
    Yields (Value.Joins left right) (op.apply left right) := by
  have hother {x : Except Cause Value} (hx : Yields (fun v => v.isText = false) x) :
      Yields (Value.Joins left right) x := hx.mono fun _ => .inl
  have harithmetic :
      Yields (Value.Joins left right) (if left.isArray || right.isArray then Operation.linear op left right
        else Operation.scalar op left right) := by
    split
    · exact hother (Operation.linear_isText op left right)
    · exact Operation.scalar_joins op left right
  have hcomparison := hother ((Operation.comparison_isDiscrete op left right).mono fun _ => Value.isText_of_isDiscrete)
  have hbitwise := hother ((Operation.bitwise_isDiscrete op left right).mono fun _ => Value.isText_of_isDiscrete)
  cases op with
  | add | sub | mul | div | mod => exact harithmetic
  | pow => exact hother (Operation.power_isText left right)
  | cross => exact hother (Operation.cross_isText left right)
  | equal | notEqual | greater | less | greaterEqual | lessEqual | compare => exact hcomparison
  | bitAnd | bitOr | bitXor | shiftLeft | shiftRight => exact hbitwise

/-- Unary operators make no text. -/
theorem UnaryOp.apply_isText (op : UnaryOp) (v : Value) : Yields (fun v => v.isText = false) (op.apply v) := by
  unfold apply
  split
  · exact .bind_any fun b => .ok rfl
  · split
    · exact .ok rfl
    · exact .error _

/-- Array literals are vectors and matrices. -/
theorem Literal.readArray_isText (literal : List Char) :
    Yields (fun v => v.isText = false) (readArray literal) := by
  unfold readArray
  split
  · exact .error _
  · split
    · refine .bind_any fun rows => ?_
      split
      · exact .bind_any fun entries => .ok rfl
      · exact .ok rfl
    · exact .bind_any fun entries => .ok rfl

end StackLang
