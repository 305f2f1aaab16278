import StackLang.Text

/-!
# Path names

A path name is made of bytes, as the file system has it. Slashes separate its steps, repeated slashes count as one,
and a single dot is a step that stays where it is. The bytes of a name need not be the UTF-8 form of a text; where a
name is shown, those that are not are replaced.
-/

namespace StackLang

/-- A path name, or a name that is one of its steps. -/
abbrev PathName := List UInt8

namespace PathName

/-- The slash between two steps. -/
def slash : UInt8 := 0x2F

/-- The step that stays where it is. -/
def here : PathName := [0x2E]

/-- The step that goes to the parent. -/
def parent : PathName := [0x2E, 0x2E]

/-! ## Texts -/

/-- The name that has the bytes of a text. -/
def ofText (text : String) : PathName := text.toUTF8.data.toList

/-- The text that a name has the bytes of, if there is one. -/
def toText? (name : PathName) : Option String := String.fromUTF8? ⟨name.toArray⟩

/-- Whether two bytes can start a character of more than two bytes. -/
def startsLong (first second : UInt8) : Bool :=
  let least := if first = 0xE0 then 0xA0 else if first = 0xF0 then 0x90 else 0x80
  let greatest := if first = 0xED then 0x9F else if first = 0xF4 then 0x8F else 0xBF
  0xE0 ≤ first && first ≤ 0xF4 && least ≤ second && second ≤ greatest

/-- How many bytes are replaced together where no character starts: as many as could start one, but at least one. -/
def unreadableLength : PathName → Nat
  | first :: second :: rest =>
    if startsLong first second then
      if 0xF0 ≤ first && rest.head?.any (fun third => 0x80 ≤ third && third ≤ 0xBF) then 3 else 2
    else 1
  | _ => 1

/-- The characters of a name, with a replacement character for bytes that are not part of any. -/
def characters : PathName → List Char
  | [] => []
  | byte :: bytes =>
    match ByteArray.utf8DecodeChar? ⟨(byte :: bytes).toArray⟩ 0 with
    | some c => c :: characters (bytes.drop (c.utf8Size - 1))
    | none => '\uFFFD' :: characters (bytes.drop (unreadableLength (byte :: bytes) - 1))
termination_by name => name.length
decreasing_by all_goals simp only [List.length_drop, List.length_cons]; omega

/-- A name as it is shown. -/
def display (name : PathName) : String := String.ofList (characters name)

/-! ## Steps -/

/-- What stands between the slashes of a path. -/
def pieces (path : PathName) : List PathName := Text.splitOn slash path

/-- The steps of a path name. -/
def steps (path : PathName) : List PathName := (pieces path).filter (· ≠ [])

/-- Some steps without the single dots at their end. -/
def withoutFinalDots (steps : List PathName) : List PathName := (steps.reverse.dropWhile (· = here)).reverse

/-- The steps to the folder that the last step starts in. -/
def parentSteps (steps : List PathName) : List PathName :=
  withoutFinalDots (withoutFinalDots steps).dropLast

/-- Leaving out final dots never lengthens a path. -/
theorem length_withoutFinalDots_le (steps : List PathName) :
    (withoutFinalDots steps).length ≤ steps.length := by
  have h := (List.dropWhile_sublist (l := steps.reverse) (· = here)).length_le
  simpa [withoutFinalDots] using h

/-- The steps to the parent are fewer. -/
theorem length_parentSteps_lt {steps : List PathName} (h : steps ≠ []) :
    (parentSteps steps).length < steps.length := by
  have houter := length_withoutFinalDots_le (withoutFinalDots steps).dropLast
  have hinner := length_withoutFinalDots_le steps
  have hpos := List.length_pos_iff.mpr h
  rw [List.length_dropLast] at houter
  unfold parentSteps
  omega

/-- The last name of a path: that of its last step which is not a single dot, unless that step goes to
the parent. -/
def fileName? (path : PathName) : Option PathName :=
  match ((steps path).filter (· ≠ here)).getLast? with
  | some name => if name = parent then none else some name
  | none => none

/-- A name within a folder. No slash is added to an empty path name or to one that ends in a slash. -/
def join (folder name : PathName) : PathName :=
  if folder = [] ∨ folder.getLast? = some slash then folder ++ name else folder ++ slash :: name

end PathName

end StackLang
