import StackLang.Literal.Lambda
import StackLang.Literal.Number
import StackLang.Located

/-!
# Literals on a line

The readers of literals, given the line that the literal stands on. A literal that cannot be read fails on its line,
and the body of a lambda is cut into tokens that stand on the line of the lambda. Each reader is followed by the
equation that connects it with the reader without lines.
-/

namespace StackLang.Literal

open Text (trim trimStart cutAt offset? position? splitOn between?)

/-- A literal that cannot be read, named as a whole. -/
def malformedAt {α : Type} (line : Nat) (literal : List Char) (malformation : Malformation) : LocatedResult α :=
  .error { line, cause := .malformedLiteral (String.ofList literal) malformation }

/-- Reads a decimal integer. -/
def readIntegerAt (line : Nat) (cs : List Char) : LocatedResult Integer :=
  match Integer.parse? cs with
  | some n => .ok n
  | none => .error { line, cause := .literalTooLarge }

/-- Integers that are too large fail on the line. -/
theorem readIntegerAt_eq (line : Nat) (cs : List Char) : readIntegerAt line cs = stamp line (readInteger cs) := by
  unfold readIntegerAt readInteger
  cases Integer.parse? cs <;> rfl

/-! ## Arrays -/

/-- Reads one integer of a row. -/
def readEntryAt (line : Nat) (literal entry : List Char) : LocatedResult Integer :=
  if Word.isInteger entry then
    match Integer.parse? entry with
    | some n => .ok n
    | none => .error { line, cause := .literalTooLarge }
  else malformedAt line literal (.notAnInteger (String.ofList entry))

/-- Reads the integers between two brackets. -/
def readRowAt (line : Nat) (literal row : List Char) : LocatedResult IntVector := do
  let entries ← (splitOn ',' row).mapM fun entry => readEntryAt line literal (trim entry)
  if entries.length < 2 then malformedAt line literal .tooFewIntegers else return entries

/-- The text of the row at the start of a text, and the text after the row. -/
def cutRowAt (line : Nat) (literal : List Char) : List Char → LocatedResult (List Char × List Char)
  | '[' :: body =>
    match offset? (· == ']') body with
    | none => malformedAt line literal .noRowEnd
    | some close =>
      match cutAt close body, cutAt (close + 1) body with
      | .ok (row, _), .ok (_, rest) => .ok (row, rest)
      | .error fault, _ | _, .error fault => .error { line, cause := .defect (.badOffset fault) }
  | _ => malformedAt line literal .noRowStart

/-- What follows the comma after a row, or nothing at the end of the text. -/
def afterCommaAt (line : Nat) (literal : List Char) (cs : List Char) : LocatedResult (Option (List Char)) :=
  match trimStart cs with
  | [] => .ok none
  | ',' :: rest => .ok (some (trimStart rest))
  | _ => malformedAt line literal .noRowSeparator

section

variable (line : Nat) (literal : List Char)

/-- Entries fail on the line. -/
theorem readEntryAt_eq (entry : List Char) :
    readEntryAt line literal entry = stamp line (readEntry literal entry) := by
  refine ite_eq_stamp ?_ rfl
  cases Integer.parse? entry <;> rfl

/-- Rows fail on the line. -/
theorem readRowAt_eq (row : List Char) : readRowAt line literal row = stamp line (readRow literal row) :=
  bind_eq_stamp (mapM_eq_stamp (fun entry => readEntryAt_eq line literal (trim entry)) _) fun _ => ite_eq_stamp rfl rfl

/-- A row that cannot be cut off fails on the line. -/
theorem cutRowAt_eq (cs : List Char) : cutRowAt line literal cs = stamp line (cutRow literal cs) := by
  unfold cutRowAt
  split
  · rename_i body
    rw [cutRow]
    cases offset? (· == ']') body with
    | none => rfl
    | some close =>
      dsimp only
      cases cutAt close body with
      | error fault => rfl
      | ok parts => cases cutAt (close + 1) body <;> rfl
  · rw [cutRow]
    · rfl
    · assumption

/-- What stands between rows fails on the line. -/
theorem afterCommaAt_eq (cs : List Char) : afterCommaAt line literal cs = stamp line (afterComma literal cs) := by
  unfold afterCommaAt
  split
  · rename_i h
    rw [afterComma, h]
    rfl
  · rename_i h
    rw [afterComma, h]
    rfl
  · rename_i hnil hcomma
    unfold afterComma
    split
    · exact (hnil ‹_›).elim
    · exact (hcomma _ ‹_›).elim
    · rfl

end

/-- Behind a row there is less text than from its start on. -/
theorem length_after_row {line : Nat} {literal cs row after rest : List Char}
    (hrow : cutRowAt line literal cs = .ok (row, after)) (hafter : afterCommaAt line literal after = .ok (some rest)) :
    rest.length < cs.length := by
  rw [cutRowAt_eq, stamp_eq_ok_iff] at hrow
  rw [afterCommaAt_eq, stamp_eq_ok_iff] at hafter
  exact Nat.lt_of_le_of_lt (length_of_afterComma hafter) (length_of_cutRow hrow)

/-- Reads the rows of a matrix. All of them have the given width, or that of the first one. -/
def readRowsAt (line : Nat) (literal : List Char) (width? : Option Nat) (cs : List Char) : LocatedResult IntMatrix :=
  match hrow : cutRowAt line literal cs with
  | .error e => .error e
  | .ok (row, after) =>
    match readRowAt line literal row with
    | .error e => .error e
    | .ok entries =>
      if width?.any (· != entries.length) then malformedAt line literal .unequalRows
      else
        match hafter : afterCommaAt line literal after with
        | .error e => .error e
        | .ok none => .ok [entries]
        | .ok (some rest) =>
          have : rest.length < cs.length := length_after_row hrow hafter
          match readRowsAt line literal (some entries.length) rest with
          | .error e => .error e
          | .ok rows => .ok (entries :: rows)
termination_by cs.length

/-- Rows are read one after another: the first one, and those behind its comma. -/
theorem readRowsAt_step (line : Nat) (literal : List Char) (width? : Option Nat) (cs : List Char) :
    readRowsAt line literal width? cs = do
      let (row, after) ← cutRowAt line literal cs
      let entries ← readRowAt line literal row
      if width?.any (· != entries.length) then malformedAt line literal .unequalRows
      else
        match ← afterCommaAt line literal after with
        | none => return [entries]
        | some rest => return entries :: (← readRowsAt line literal (some entries.length) rest) := by
  rw [readRowsAt]
  split
  · rename_i hrow
    rw [hrow]
    rfl
  · rename_i row after hrow
    dsimp only
    rw [hrow]
    change _ = readRowAt line literal row >>= _
    cases readRowAt line literal row with
    | error e => rfl
    | ok entries =>
      refine ite_congr rfl (fun _ => rfl) fun _ => ?_
      split
      · rename_i hafter
        rw [hafter]
        rfl
      · rename_i hafter
        rw [hafter]
        rfl
      · rename_i rest hafter
        rw [hafter]
        change _ = readRowsAt line literal (some entries.length) rest >>= _
        cases readRowsAt line literal (some entries.length) rest <;> rfl

/-- Matrices fail on the line. -/
theorem readRowsAt_eq (line : Nat) (literal : List Char) (width? : Option Nat) (cs : List Char) :
    readRowsAt line literal width? cs = stamp line (readRows literal width? cs) := by
  rw [readRowsAt_step, readRows_eq]
  refine bind_eq_stamp_of_ok (cutRowAt_eq line literal cs) fun (row, after) hrow => ?_
  refine bind_eq_stamp (readRowAt_eq line literal row) fun entries => ite_eq_stamp rfl ?_
  refine bind_eq_stamp_of_ok (afterCommaAt_eq line literal after) fun rest? hafter => ?_
  cases rest? with
  | none => rfl
  | some rest =>
    have : rest.length < cs.length := Nat.lt_of_le_of_lt (length_of_afterComma hafter) (length_of_cutRow hrow)
    exact map_eq_stamp (readRowsAt_eq line literal (some entries.length) rest) _
termination_by cs.length

/-- Reads a vector or matrix. -/
def readArrayAt (line : Nat) (literal : List Char) : LocatedResult Value := do
  match (between? '[' ']' (trim literal)).map trim with
  | none => malformedAt line literal .noBrackets
  | some inner =>
    if inner.head? = some '[' then
      let rows ← readRowsAt line literal none inner
      if rows.length = 1 then
        return .vector (← orDefectAt line .outOfBounds rows.head?)
      else return .matrix rows
    else return .vector (← readRowAt line literal inner)

/-- Arrays fail on the line. -/
theorem readArrayAt_eq (line : Nat) (literal : List Char) :
    readArrayAt line literal = stamp line (readArray literal) := by
  unfold readArrayAt readArray
  cases (between? '[' ']' (trim literal)).map trim with
  | none => rfl
  | some inner =>
    refine ite_eq_stamp (bind_eq_stamp (readRowsAt_eq line literal none inner) fun rows => ?_)
      (map_eq_stamp (readRowAt_eq line literal inner) _)
    exact ite_eq_stamp (map_eq_stamp (orDefectAt_eq _ _) _) rfl

/-! ## Lambdas -/

/-- Takes a lambda literal apart at its first bar. -/
def readLambdaAt (line : Nat) (literal : List Char) : LocatedResult Lambda :=
  match between? '\x7b' '\x7d' (trim literal) with
  | none => malformedAt line literal .noBraces
  | some inner =>
    match position? '|' inner with
    | none => malformedAt line literal .noBar
    | some bar =>
      let count := trim (inner.take bar)
      if Text.isNumeral count then
        if Text.numeralValue count < countBound then
          .ok { arity := Text.numeralValue count, body := trim (inner.drop (bar + 1)) }
        else .error { line, cause := .literalTooLarge }
      else malformedAt line literal .badParameterCount

/-- The tokens of a lambda's body, which stand on the line of the lambda. -/
def readBodyAt (line : Nat) (literal body : List Char) : LocatedResult (List Token) :=
  match Token.ofLine line body with
  | .ok tokens => .ok tokens
  | .error { cause := .unterminated kind, .. } => malformedAt line literal (.unreadableBody kind)
  | .error { cause := .defect fault, .. } => .error { line, cause := .defect fault }

/-- Lambdas fail on the line. -/
theorem readLambdaAt_eq (line : Nat) (literal : List Char) :
    readLambdaAt line literal = stamp line (readLambda literal) := by
  unfold readLambdaAt readLambda
  cases between? '\x7b' '\x7d' (trim literal) with
  | none => rfl
  | some inner =>
    dsimp only
    cases position? '|' inner with
    | none => rfl
    | some bar => exact ite_eq_stamp (ite_eq_stamp rfl rfl) rfl

/-- The words of a lambda's body stand on the line of the lambda, and a body that cannot be read fails on it. -/
theorem readBodyAt_eq (line : Nat) (literal body : List Char) :
    readBodyAt line literal body =
      stamp line (do return (← readBody literal body).map fun text => { text, line : Token }) := by
  unfold readBodyAt readBody Token.ofLine
  cases Token.scan body with
  | ok words => rfl
  | error cause => cases cause <;> rfl

end StackLang.Literal
