import StackLang.Failure
import StackLang.Text
import StackLang.Word

/-!
# Array literals

An array literal is a vector `[1, 2]` or a matrix `[[1, 2], [3, 4]]` with at least two integers in each row
and rows of one length. A matrix of one row is a vector. Blanks may surround every part.
-/

namespace StackLang.Literal

open Text (trim trimStart cutAt offset? splitOn between?)

/-- A literal that cannot be read, named as a whole. -/
def malformed {α : Type} (literal : List Char) (malformation : Malformation) : Except Cause α :=
  .error (.malformedLiteral (String.ofList literal) malformation)

/-- Reads one integer of a row. -/
def readEntry (literal entry : List Char) : Except Cause Integer :=
  if Word.isInteger entry then
    match Integer.parse? entry with
    | some n => .ok n
    | none => .error .literalTooLarge
  else malformed literal (.notAnInteger (String.ofList entry))

/-- Reads the integers between two brackets. -/
def readRow (literal row : List Char) : Except Cause IntVector := do
  let entries ← (splitOn ',' row).mapM fun entry => readEntry literal (trim entry)
  if entries.length < 2 then malformed literal .tooFewIntegers else return entries

/-- The text of the row at the start of a text, and the text after the row. -/
def cutRow (literal : List Char) : List Char → Except Cause (List Char × List Char)
  | '[' :: body =>
    match offset? (· == ']') body with
    | none => malformed literal .noRowEnd
    | some close =>
      match cutAt close body, cutAt (close + 1) body with
      | .ok (row, _), .ok (_, rest) => .ok (row, rest)
      | .error fault, _ | _, .error fault => .error (.defect (.badOffset fault))
  | _ => malformed literal .noRowStart

/-- What follows the comma after a row, or nothing at the end of the text. -/
def afterComma (literal : List Char) (cs : List Char) : Except Cause (Option (List Char)) :=
  match trimStart cs with
  | [] => .ok none
  | ',' :: rest => .ok (some (trimStart rest))
  | _ => malformed literal .noRowSeparator

/-- The text after a row is shorter than the text that starts with the row. -/
theorem length_of_cutRow {literal cs row rest : List Char} (h : cutRow literal cs = .ok (row, rest)) :
    rest.length < cs.length := by
  unfold cutRow at h
  split at h
  · rename_i body
    split at h
    · simp [malformed] at h
    · rename_i close _
      cases hrow : cutAt close body with
      | error fault => simp [hrow] at h
      | ok parts =>
        cases hrest : cutAt (close + 1) body with
        | error fault => simp [hrow, hrest] at h
        | ok parts' =>
          simp only [hrow, hrest, Except.ok.injEq, Prod.mk.injEq] at h
          obtain ⟨rfl, -⟩ := Text.of_cutAt hrest
          rw [← h.2, List.length_cons, List.length_append]
          omega
  · simp [malformed] at h

/-- The text after a comma is no longer than the text before it. -/
theorem length_of_afterComma {literal cs rest : List Char} (h : afterComma literal cs = .ok (some rest)) :
    rest.length ≤ cs.length := by
  have hcs := Text.length_trimStart_le cs
  unfold afterComma at h
  split at h
  · simp at h
  · rename_i body hbody
    simp only [Except.ok.injEq, Option.some.injEq] at h
    have hrest := Text.length_trimStart_le body
    rw [hbody, List.length_cons] at hcs
    rw [← h]
    omega
  · simp [malformed] at h

/-- Reads the rows of a matrix. All of them have the given width, or that of the first one. -/
def readRows (literal : List Char) (width? : Option Nat) (cs : List Char) : Except Cause IntMatrix :=
  match hrow : cutRow literal cs with
  | .error cause => .error cause
  | .ok (row, after) =>
    match readRow literal row with
    | .error cause => .error cause
    | .ok entries =>
      if width?.any (· != entries.length) then malformed literal .unequalRows
      else
        match hafter : afterComma literal after with
        | .error cause => .error cause
        | .ok none => .ok [entries]
        | .ok (some rest) =>
          have : rest.length < cs.length :=
            Nat.lt_of_le_of_lt (length_of_afterComma hafter) (length_of_cutRow hrow)
          match readRows literal (some entries.length) rest with
          | .error cause => .error cause
          | .ok rows => .ok (entries :: rows)
termination_by cs.length

/-- Rows are read one after another: the first one, and those behind its comma. -/
theorem readRows_eq (literal : List Char) (width? : Option Nat) (cs : List Char) :
    readRows literal width? cs = do
      let (row, after) ← cutRow literal cs
      let entries ← readRow literal row
      if width?.any (· != entries.length) then malformed literal .unequalRows
      else
        match ← afterComma literal after with
        | none => return [entries]
        | some rest => return entries :: (← readRows literal (some entries.length) rest) := by
  rw [readRows]
  split
  · rename_i hrow
    rw [hrow]
    rfl
  · rename_i row after hrow
    dsimp only
    rw [hrow]
    change _ = readRow literal row >>= _
    cases readRow literal row with
    | error cause => rfl
    | ok entries =>
      refine ite_congr rfl (fun _ => rfl) fun _ => ?_
      split
      · rename_i hafter
        rw [hafter]
        rfl
      · rename_i hafter
        rw [hafter]
        rfl
      · rename_i rest hafter
        rw [hafter]
        change _ = readRows literal (some entries.length) rest >>= _
        cases readRows literal (some entries.length) rest <;> rfl

/-- Reads a vector or matrix. -/
def readArray (literal : List Char) : Except Cause Value := do
  match (between? '[' ']' (trim literal)).map trim with
  | none => malformed literal .noBrackets
  | some inner =>
    if inner.head? = some '[' then
      let rows ← readRows literal none inner
      if rows.length = 1 then
        return .vector (← orDefect .outOfBounds rows.head?)
      else return .matrix rows
    else return .vector (← readRow literal inner)

end StackLang.Literal
