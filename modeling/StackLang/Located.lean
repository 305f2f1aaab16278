import StackLang.Failure

/-!
# Results on a line

The interpreter's functions take the line that they work for and build every failure on it. Where the line is of no
interest, the same function without lines is easier to reason about. An equation connects the two: the function with
a line gives what the other one gives, with the line stamped on a failure. This module holds the rules by which such
equations are put together.
-/

namespace StackLang

/-- A result, or a failure with its line. -/
abbrev LocatedResult (α : Type) := Except (Located Cause) α

/-- A result that is missing only through a defect. -/
def orDefectAt {α : Type} (line : Nat) (fault : Defect) : Option α → LocatedResult α
  | some a => .ok a
  | none => .error { line, cause := .defect fault }

/-- A result that is missing only when an integer leaves its range. -/
def orOverflowAt {α : Type} (line : Nat) : Option α → LocatedResult α
  | some a => .ok a
  | none => .error { line, cause := .overflow }

/-- A result with a line stamped on its failure. -/
def stamp {α : Type} (line : Nat) : Except Cause α → LocatedResult α
  | .ok a => .ok a
  | .error cause => .error { line, cause }

section

variable {α β : Type} {line : Nat}

/-- A stamp makes no result out of a failure, and changes none. -/
theorem stamp_eq_ok_iff {x : Except Cause α} {a : α} : stamp line x = .ok a ↔ x = .ok a := by
  cases x <;> simp [stamp]

/-- A result that is handed on is stamped before and after it is. What it is handed on to matters for the result
only. -/
theorem bind_eq_stamp_of_ok {x : Except Cause α} {y : LocatedResult α} {f : α → Except Cause β}
    {g : α → LocatedResult β} (hx : y = stamp line x) (hf : ∀ a, x = .ok a → g a = stamp line (f a)) :
    (y >>= g) = stamp line (x >>= f) := by
  subst hx
  cases x with
  | ok a => exact hf a rfl
  | error cause => rfl

/-- A result that is handed on is stamped before and after it is. -/
theorem bind_eq_stamp {x : Except Cause α} {y : LocatedResult α} {f : α → Except Cause β} {g : α → LocatedResult β}
    (hx : y = stamp line x) (hf : ∀ a, g a = stamp line (f a)) : (y >>= g) = stamp line (x >>= f) :=
  bind_eq_stamp_of_ok hx fun a _ => hf a

/-- A result that is handed on to something that cannot fail is stamped before. -/
theorem map_eq_stamp {x : Except Cause α} {y : LocatedResult α} (hx : y = stamp line x) (f : α → β) :
    (do return f (← y)) = stamp line (do return f (← x)) :=
  bind_eq_stamp hx fun _ => rfl

/-- A choice is stamped if both of its branches are. -/
theorem ite_eq_stamp {p : Prop} [Decidable p] {x x' : Except Cause α} {y y' : LocatedResult α}
    (hx : y = stamp line x) (hx' : y' = stamp line x') :
    (if p then y else y') = stamp line (if p then x else x') := by
  split
  · exact hx
  · exact hx'

/-- The results for the elements of a list are stamped one by one. -/
theorem mapM_eq_stamp {f : α → Except Cause β} {g : α → LocatedResult β} (h : ∀ a, g a = stamp line (f a))
    (as : List α) : as.mapM g = stamp line (as.mapM f) := by
  induction as with
  | nil => rfl
  | cons a as ih =>
    rw [List.mapM_cons, List.mapM_cons]
    exact bind_eq_stamp (h a) fun b => map_eq_stamp ih (b :: ·)

/-- The results of going through a list are stamped step by step. -/
theorem foldlM_eq_stamp {f : β → α → Except Cause β} {g : β → α → LocatedResult β}
    (h : ∀ b a, g b a = stamp line (f b a)) (as : List α) (b : β) :
    as.foldlM g b = stamp line (as.foldlM f b) := by
  induction as generalizing b with
  | nil => rfl
  | cons a as ih =>
    rw [List.foldlM_cons, List.foldlM_cons]
    exact bind_eq_stamp (h b a) ih

/-- A defect is put on the line. -/
theorem orDefectAt_eq (fault : Defect) (a? : Option α) : orDefectAt line fault a? = stamp line (orDefect fault a?) := by
  cases a? <;> rfl

/-- An overflow is put on the line. -/
theorem orOverflowAt_eq (a? : Option α) : orOverflowAt line a? = stamp line (orOverflow a?) := by
  cases a? <;> rfl

end

end StackLang
