import StackLang.Failure
import StackLang.Text

/-!
# The stack

A stack holds values up to a capacity. Every operation checks the number of values before it removes or moves
any, so that a failing operation leaves the stack as it was.
-/

namespace StackLang

/-- Values with the top first, the number of them, and how many there may be. -/
structure Stack where
  capacity : Nat
  values : List Value
  size : Nat
  size_eq : size = values.length

/-- A step that works on the stack and may fail. The stack keeps what a failing step did to it. -/
abbrev StackStep (α : Type) := EStateM Cause Stack α

namespace Stack

/-- A stack that holds some values, given top first. -/
def ofList (capacity : Nat) (values : List Value) : Stack where
  capacity
  values
  size := values.length
  size_eq := rfl

/-- A stack without values. -/
def empty (capacity : Nat) : Stack := ofList capacity []

/-- The values with the bottom first. -/
def toList (s : Stack) : List Value := s.values.reverse

/-- Stacks with the same capacity and values are the same. -/
@[ext]
theorem ext {s t : Stack} (hcapacity : s.capacity = t.capacity) (hvalues : s.values = t.values) : s = t := by
  obtain ⟨_, _, _, hs⟩ := s
  obtain ⟨_, _, _, ht⟩ := t
  subst hs ht
  simp_all

/-- A stack with one more value on top. -/
def cons (v : Value) (s : Stack) : Stack :=
  { s with values := v :: s.values, size := s.size + 1, size_eq := by rw [s.size_eq, List.length_cons] }

/-- A stack without its top `n` values. -/
def dropTop (n : Nat) (s : Stack) : Stack :=
  { s with values := s.values.drop n, size := s.size - n, size_eq := by rw [s.size_eq, List.length_drop] }

/-- A stack whose top `n` values, given top first, are rearranged by a function that keeps their number. -/
def rearrangeTop (n : Nat) (f : List Value → List Value) (hf : ∀ front, (f front).length = front.length)
    (s : Stack) : Stack :=
  { s with
    values := f (s.values.take n) ++ s.values.drop n
    size_eq := by rw [List.length_append, hf, ← List.length_append, List.take_append_drop, s.size_eq] }

/-- The last element moved to the front. -/
def lastToFront (front : List Value) : List Value := front.getLast?.toList ++ front.dropLast

/-- The first element moved to the end. -/
def firstToEnd (front : List Value) : List Value := front.tail ++ front.head?.toList

/-- Moving the last element keeps the number of elements. -/
theorem length_lastToFront (front : List Value) : (lastToFront front).length = front.length := by
  cases front with
  | nil => rfl
  | cons v rest => simp [lastToFront, List.getLast?_cons]

/-- Moving the first element keeps the number of elements. -/
theorem length_firstToEnd (front : List Value) : (firstToEnd front).length = front.length := by
  cases front <;> simp [firstToEnd]

/-- Fails unless at least `n` values are present. -/
def require (n : Nat) : StackStep Unit := do
  let s ← get
  if s.size < n then throw (.stackUnderflow n s.size)

/-- Puts a value on top. -/
def push (v : Value) : StackStep Unit := do
  let s ← get
  if s.capacity ≤ s.size then throw (.stackOverflow s.capacity) else set (s.cons v)

/-- The top `n` values, top first, which stay. -/
def top (n : Nat) : StackStep (List Value) := do
  require n
  match Text.cut? n (← get).values with
  | none => throw (.defect .negativeCount)
  | some (front, _) => return front

/-- Removes the top `n` values and gives them, top first. -/
def popN (n : Nat) : StackStep (List Value) := do
  let front ← top n
  modify (dropTop n)
  return front

/-- Removes the top value and gives it. -/
def pop : StackStep Value := do
  match (← get).values with
  | [] => throw (.stackUnderflow 1 0)
  | v :: _ =>
    modify (dropTop 1)
    return v

/-- Removes the top two values and gives them in the order in which they were pushed. -/
def popPair : StackStep (Value × Value) := do
  match ← popN 2 with
  | [right, left] => return (left, right)
  | popped => throw (.stackUnderflow 2 popped.length)

/-- The top value, which stays. -/
def peek : StackStep Value := do
  match (← get).values with
  | [] => throw (.stackUnderflow 1 0)
  | v :: _ => return v

/-- Moves the `n`-th value from the top to the top. -/
def rotateUp (n : Nat) : StackStep Unit := do
  let _ ← top n
  modify (rearrangeTop n lastToFront length_lastToFront)

/-- Moves the top value down to the `n`-th position from the top. -/
def rotateDown (n : Nat) : StackStep Unit := do
  let _ ← top n
  modify (rearrangeTop n firstToEnd length_firstToEnd)

end Stack

end StackLang
