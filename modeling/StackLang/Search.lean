import StackLang.Text

/-!
# Searching a text for a pattern

Texts are searched by a library. What the program hands it is a pattern, and what it gets back is the text that has
been found and the part of it that each group of the pattern stands for. Which characters count as decimal digits is
up to the library too: it has a table of them, which follows some version of Unicode.

The standard library searches from the left, and its digits are those of the general category Nd in Unicode 16.
-/

namespace StackLang

/-- A pattern that a text is searched for. -/
inductive SearchPattern where
  /-- A text as it is. -/
  | text (cs : List Char)
  /-- A number of decimal digits. -/
  | digits (count : Nat)
  /-- A pattern whose part of the text is reported. -/
  | group (p : SearchPattern)
  /-- One pattern right behind another. -/
  | seq (p q : SearchPattern)
deriving DecidableEq, Repr

/-- A library that searches texts. -/
structure SearchLibrary where
  /-- Whether a character is a decimal digit. -/
  isDigit : Char → Bool
  /-- What is found of a pattern in a text, and behind it what the groups of the pattern stand for, in their order. -/
  captures? : SearchPattern → List Char → Option (List (List Char))

/-! ## The standard library -/

namespace SearchPattern

/-- A match at the start of a text: what is found, what the groups stand for, and what is left of the text. -/
def matchStart? (isDigit : Char → Bool) :
    SearchPattern → List Char → Option (List Char × List (List Char) × List Char)
  | text cs, source =>
    match Text.cut? cs.length source with
    | some (found, rest) => if found = cs then some (found, [], rest) else none
    | none => none
  | digits count, source =>
    match Text.cut? count source with
    | some (found, rest) => if found.all isDigit then some (found, [], rest) else none
    | none => none
  | group p, source => do
    let (found, groups, rest) ← matchStart? isDigit p source
    return (found, found :: groups, rest)
  | seq p q, source => do
    let (found, groups, middle) ← matchStart? isDigit p source
    let (found', groups', rest) ← matchStart? isDigit q middle
    return (found ++ found', groups ++ groups', rest)

/-- What is found at the start of a text, and behind it what the groups stand for. -/
def capturesAtStart? (isDigit : Char → Bool) (p : SearchPattern) (source : List Char) : Option (List (List Char)) :=
  (p.matchStart? isDigit source).map fun (found, groups, _) => found :: groups

/-- What is found first in a text, and behind it what the groups stand for. -/
def firstCaptures? (isDigit : Char → Bool) (p : SearchPattern) : List Char → Option (List (List Char))
  | [] => p.capturesAtStart? isDigit []
  | c :: cs => (p.capturesAtStart? isDigit (c :: cs)).or (p.firstCaptures? isDigit cs)

end SearchPattern

namespace SearchLibrary

/-- The code points of the general category Nd. -/
def decimalDigitRanges : List (Nat × Nat) :=
  [(0x0030, 0x0039), (0x0660, 0x0669), (0x06F0, 0x06F9), (0x07C0, 0x07C9), (0x0966, 0x096F),
    (0x09E6, 0x09EF), (0x0A66, 0x0A6F), (0x0AE6, 0x0AEF), (0x0B66, 0x0B6F), (0x0BE6, 0x0BEF),
    (0x0C66, 0x0C6F), (0x0CE6, 0x0CEF), (0x0D66, 0x0D6F), (0x0DE6, 0x0DEF), (0x0E50, 0x0E59),
    (0x0ED0, 0x0ED9), (0x0F20, 0x0F29), (0x1040, 0x1049), (0x1090, 0x1099), (0x17E0, 0x17E9),
    (0x1810, 0x1819), (0x1946, 0x194F), (0x19D0, 0x19D9), (0x1A80, 0x1A89), (0x1A90, 0x1A99),
    (0x1B50, 0x1B59), (0x1BB0, 0x1BB9), (0x1C40, 0x1C49), (0x1C50, 0x1C59), (0xA620, 0xA629),
    (0xA8D0, 0xA8D9), (0xA900, 0xA909), (0xA9D0, 0xA9D9), (0xA9F0, 0xA9F9), (0xAA50, 0xAA59),
    (0xABF0, 0xABF9), (0xFF10, 0xFF19), (0x104A0, 0x104A9), (0x10D30, 0x10D39), (0x10D40, 0x10D49),
    (0x11066, 0x1106F), (0x110F0, 0x110F9), (0x11136, 0x1113F), (0x111D0, 0x111D9), (0x112F0, 0x112F9),
    (0x11450, 0x11459), (0x114D0, 0x114D9), (0x11650, 0x11659), (0x116C0, 0x116C9), (0x116D0, 0x116E3),
    (0x11730, 0x11739), (0x118E0, 0x118E9), (0x11950, 0x11959), (0x11BF0, 0x11BF9), (0x11C50, 0x11C59),
    (0x11D50, 0x11D59), (0x11DA0, 0x11DA9), (0x11F50, 0x11F59), (0x16130, 0x16139), (0x16A60, 0x16A69),
    (0x16AC0, 0x16AC9), (0x16B50, 0x16B59), (0x16D70, 0x16D79), (0x1CCF0, 0x1CCF9), (0x1D7CE, 0x1D7FF),
    (0x1E140, 0x1E149), (0x1E2F0, 0x1E2F9), (0x1E4F0, 0x1E4F9), (0x1E5F1, 0x1E5FA), (0x1E950, 0x1E959),
    (0x1FBF0, 0x1FBF9)]

/-- The library that the program runs with. -/
def standard : SearchLibrary where
  isDigit := Text.inRanges decimalDigitRanges
  captures? := SearchPattern.firstCaptures? (Text.inRanges decimalDigitRanges)

end SearchLibrary

end StackLang
