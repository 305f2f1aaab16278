/-!
# Texts

Texts are lists of characters. A text is cut at a count of characters, at a byte offset, at a separating
character, at its line ends, or between an opening and a closing character. Blanks and numerals are classes of
characters and of texts.
-/

namespace StackLang.Text

/-! ## Blanks -/

/-- Whether a character's code point lies in one of the ranges, both ends included. -/
def inRanges (ranges : List (Nat × Nat)) (c : Char) : Bool :=
  ranges.any fun (first, last) => first ≤ c.toNat && c.toNat ≤ last

/-- The code points with the property White_Space. -/
def blankRanges : List (Nat × Nat) :=
  [(0x09, 0x0D), (0x20, 0x20), (0x85, 0x85), (0xA0, 0xA0), (0x1680, 0x1680), (0x2000, 0x200A),
    (0x2028, 0x2029), (0x202F, 0x202F), (0x205F, 0x205F), (0x3000, 0x3000)]

/-- Whether a character is blank. This is a wider class than `Char.isWhitespace`. -/
def isBlank (c : Char) : Bool := inRanges blankRanges c

/-- A text without the blanks at its start. -/
def trimStart (cs : List Char) : List Char := cs.dropWhile isBlank

/-- A text without the blanks at its end. -/
def trimEnd (cs : List Char) : List Char := (cs.reverse.dropWhile isBlank).reverse

/-- A text without the blanks at either end. -/
def trim (cs : List Char) : List Char := trimEnd (trimStart cs)

/-- Removing blanks never lengthens a text. -/
theorem length_trimStart_le (cs : List Char) : (trimStart cs).length ≤ cs.length :=
  (List.dropWhile_sublist isBlank).length_le

/-- What remains without the blanks at the start does not start with one. -/
theorem isBlank_of_trimStart {cs rest : List Char} {first : Char} (h : trimStart cs = first :: rest) :
    isBlank first = false := by
  have hhead := List.head?_dropWhile_not isBlank cs
  rw [trimStart] at h
  rwa [h] at hhead

/-! ## Counts -/

/-- The first `n` elements and the rest, or nothing if there are fewer than `n`. -/
def cut? {α : Type} : Nat → List α → Option (List α × List α)
  | 0, as => some ([], as)
  | _ + 1, [] => none
  | n + 1, a :: as => (cut? n as).map fun (front, rest) => (a :: front, rest)

/-- A cut succeeds exactly when the position lies within the list, and loses nothing. -/
theorem cut?_eq {α : Type} (n : Nat) (as : List α) :
    cut? n as = if n ≤ as.length then some (as.take n, as.drop n) else none := by
  induction n generalizing as with
  | zero => simp [cut?]
  | succ n ih =>
    cases as with
    | nil => simp [cut?]
    | cons a as => by_cases h : n ≤ as.length <;> simp [cut?, ih, h]

/-- The position of the first occurrence of a character. -/
def position? (c : Char) (cs : List Char) : Option Nat := cs.findIdx? (· == c)

/-! ## Byte offsets -/

/-- The number of bytes that a text takes in UTF-8. -/
def byteLength : List Char → Nat
  | [] => 0
  | c :: cs => c.utf8Size + byteLength cs

/-- A text without characters takes no bytes. -/
@[simp]
theorem byteLength_nil : byteLength [] = 0 := rfl

/-- The bytes of the first character come first. -/
@[simp]
theorem byteLength_cons (c : Char) (cs : List Char) : byteLength (c :: cs) = c.utf8Size + byteLength cs := rfl

/-- The bytes of two parts add up. -/
@[simp]
theorem byteLength_append (front rest : List Char) :
    byteLength (front ++ rest) = byteLength front + byteLength rest := by
  induction front with
  | nil => simp
  | cons c front ih =>
    simp only [List.cons_append, byteLength_cons, ih]
    omega

/-- The byte offset of the first character with a property. -/
def offset? (p : Char → Bool) : List Char → Option Nat
  | [] => none
  | c :: cs => if p c then some 0 else (offset? p cs).map (c.utf8Size + ·)

/-- Why a text cannot be cut at a byte offset. -/
inductive OffsetFault where
  | pastEnd
  | insideCharacter
deriving DecidableEq, Repr

/-- The text before a byte offset and the text behind it. -/
def cutAt : Nat → List Char → Except OffsetFault (List Char × List Char)
  | 0, cs => .ok ([], cs)
  | _ + 1, [] => .error .pastEnd
  | n + 1, c :: cs =>
    if n + 1 < c.utf8Size then .error .insideCharacter
    else (cutAt (n + 1 - c.utf8Size) cs).map fun (front, rest) => (c :: front, rest)

/-- The two parts of a cut make up the text, and the first part takes as many bytes as the offset says. -/
theorem of_cutAt {n : Nat} {cs front rest : List Char} (h : cutAt n cs = .ok (front, rest)) :
    cs = front ++ rest ∧ n = byteLength front := by
  fun_induction cutAt n cs generalizing front rest with
  | case1 cs =>
    cases h
    exact ⟨rfl, rfl⟩
  | case2 => cases h
  | case3 => cases h
  | case4 n c cs hfits ih =>
    cases hcut : cutAt (n + 1 - c.utf8Size) cs with
    | error fault =>
      rw [hcut] at h
      cases h
    | ok parts =>
      rw [hcut] at h
      cases h
      obtain ⟨hcs, hn⟩ := ih hcut
      refine ⟨congrArg (c :: ·) hcs, ?_⟩
      rw [byteLength_cons, ← hn]
      omega

/-! ## Separators and delimiters -/

/-- The pieces between the occurrences of a separator. There is always at least one piece. -/
def splitOn {α : Type} [BEq α] (separator : α) : List α → List (List α)
  | [] => [[]]
  | c :: cs =>
    if c == separator then [] :: splitOn separator cs
    else
      match splitOn separator cs with
      | [] => [[c]]
      | piece :: pieces => (c :: piece) :: pieces

/-- A text without its last character, if that character is the given one. -/
def dropLast? (c : Char) (cs : List Char) : Option (List Char) :=
  if cs.getLast? == some c then some cs.dropLast else none

/-- The text between an opening character at its start and a closing character at its end. -/
def between? (opening closing : Char) : List Char → Option (List Char)
  | [] => none
  | c :: cs => if c == opening then dropLast? closing cs else none

/-! ## Lines -/

/-- A line without the carriage return that belongs to its end. -/
def dropReturn (cs : List Char) : List Char := (dropLast? '\r' cs).getD cs

/-- The lines in the pieces between line feeds. The piece behind the last line feed is a line unless it is empty,
and keeps its carriage returns. -/
def linesOfPieces : List (List Char) → List (List Char)
  | [] => []
  | [last] => if last.isEmpty then [] else [last]
  | piece :: pieces => dropReturn piece :: linesOfPieces pieces

/-- The lines of a text, without their ends. -/
def lines (cs : List Char) : List (List Char) := linesOfPieces (splitOn '\n' cs)

/-- A text that holds each line followed by a line feed. -/
def unlines (lines : List String) : String := String.join (lines.map (· ++ "\n"))

/-! ## Numerals -/

/-- Whether a text is a non-empty run of ASCII digits. -/
def isNumeral (cs : List Char) : Bool := !cs.isEmpty && cs.all Char.isDigit

/-- The value of a run of digits in base ten. -/
def numeralValue (digits : List Char) : Nat := Nat.ofDigitChars 10 digits 0

/-- A number in base ten, without leading zeros. -/
def numeral (n : Nat) : List Char := Nat.toDigits 10 n

/-- Writing a number and reading it back gives the number. -/
theorem numeralValue_numeral (n : Nat) : numeralValue (numeral n) = n := by
  simp [numeralValue, numeral]

/-- The value of a numeral below a bound, with an optional plus sign. -/
def naturalBelow? (bound : Nat) (cs : List Char) : Option Nat :=
  let digits := match cs with
    | '+' :: rest => rest
    | rest => rest
  if isNumeral digits && numeralValue digits < bound then some (numeralValue digits) else none

end StackLang.Text
