import StackLang.Literal.Array
import StackLang.Literal.Number
import StackLang.Proofs.Texts

/-!
# The text of an integer

Integers are written in base ten, with a minus sign in front of negative ones. Such a text is classified as
an integer, whatever its size: the only other word that it can start with is the minus sign, and the longest
word decides. Reading the text of an integer gives the integer, also at both ends of the range.
-/

namespace StackLang

/-! ## Classification -/

namespace Word

/-- Whether a text is a run of digits, with or without a minus sign in front. -/
def IsIntegerText (cs : List Char) : Prop :=
  ∃ digits, Text.isNumeral digits = true ∧ (cs = digits ∨ cs = '-' :: digits)

/-- A numeral is a digit followed by digits. -/
theorem exists_cons_of_isNumeral {digits : List Char} (h : Text.isNumeral digits = true) :
    ∃ d ds, digits = d :: ds ∧ ∀ c ∈ d :: ds, c.isDigit = true := by
  cases digits with
  | nil => cases h
  | cons d ds => exact ⟨d, ds, rfl, by simpa [Text.isNumeral] using h⟩

/-- A minus sign is no digit. -/
theorem ne_minus_of_isDigit {c : Char} (h : c.isDigit = true) : c ≠ '-' := by
  rintro rfl
  revert h
  decide

/-- A run of digits, with or without a minus sign, holds nothing else. -/
theorem IsIntegerText.mem {cs : List Char} (h : IsIntegerText cs) {c : Char} (hc : c ∈ cs) :
    c = '-' ∨ c.isDigit = true := by
  obtain ⟨digits, hdigits, hcs⟩ := h
  obtain ⟨d, ds, rfl, hall⟩ := exists_cons_of_isNumeral hdigits
  rcases hcs with rfl | rfl
  · exact .inr (hall c hc)
  · exact (List.mem_cons.mp hc).imp_right (hall c)

/-- A run of digits, with or without a minus sign, has no blanks and is not empty. -/
theorem IsIntegerText.trimmed {cs : List Char} (h : IsIntegerText cs) : Text.Trimmed cs := by
  have hne : cs ≠ [] := by
    obtain ⟨digits, hdigits, hcs⟩ := h
    obtain ⟨d, ds, rfl, _⟩ := exists_cons_of_isNumeral hdigits
    rcases hcs with rfl | rfl <;> exact List.cons_ne_nil _ _
  refine Text.trimmed_of_forall hne fun c hc => ?_
  rcases h.mem hc with rfl | hdigit
  · rfl
  · exact Text.isBlank_of_isDigit hdigit

/-- An integer at the start of a text is found together with the digits that follow it. -/
theorem integerLength?_append {start : List Char} (h : IsIntegerText start) (rest : List Char) :
    integerLength? (start ++ rest) = some (start.length + (rest.takeWhile Char.isDigit).length) := by
  obtain ⟨digits, hdigits, hstart⟩ := h
  obtain ⟨d, ds, rfl, hall⟩ := exists_cons_of_isNumeral hdigits
  have htake : (d :: (ds ++ rest)).takeWhile Char.isDigit = d :: ds ++ rest.takeWhile Char.isDigit :=
    List.takeWhile_append_of_pos hall
  rcases hstart with rfl | rfl
  · have hminus : d ≠ '-' := ne_minus_of_isDigit (hall d List.mem_cons_self)
    rw [List.cons_append]
    unfold integerLength?
    split
    rename_i sign rest' hsplit
    split at hsplit
    · rename_i heq
      cases heq
      exact absurd rfl hminus
    · cases hsplit
      rw [htake, List.length_append, List.length_cons, Nat.add_right_comm]
      exact congrArg some (Nat.zero_add _)
  · rw [List.cons_append, List.cons_append, integerLength?]
    rw [htake, List.length_append, List.length_cons, Nat.add_right_comm]
    exact congrArg some (by rw [List.length_cons, List.length_cons]; omega)

/-- An integer is found over the whole of its text. -/
theorem integerLength?_of_isIntegerText {cs : List Char} (h : IsIntegerText cs) :
    integerLength? cs = some cs.length := by
  simpa using integerLength?_append h []

/-- A text that is an integer as a whole is no float: there is no room for a point. -/
theorem floatLength?_of_isIntegerText {cs : List Char} (h : IsIntegerText cs) : floatLength? cs = none := by
  rw [floatLength?, integerLength?_of_isIntegerText h]
  simp

/-- The longest of some words is one of them. -/
theorem mem_of_longest? {words : List (Word × Nat)} {best : Word × Nat} (h : longest? words = some best) :
    best ∈ words := by
  induction words generalizing best with
  | nil => cases h
  | cons word words ih =>
    rw [longest?] at h
    split at h
    · cases h
      exact List.mem_cons_self
    · rename_i best' hbest'
      split at h
      · cases h
        exact List.mem_cons_self
      · cases h
        exact List.mem_cons_of_mem word (ih hbest')

/-- The longest of some words is the first one, if none is longer. -/
theorem longest?_cons {word : Word × Nat} {words : List (Word × Nat)} (h : ∀ other ∈ words, other.2 ≤ word.2) :
    longest? (word :: words) = some word := by
  rw [longest?]
  split
  · rfl
  · rename_i best hbest
    rw [if_pos (h best (mem_of_longest? hbest))]

/-- A word at the start of a text is no longer than the text. -/
theorem length_le_of_mem_fixed {cs : List Char} {candidate : Word × Nat}
    (h : candidate ∈ fixed.filterMap fun (spelling, word) =>
      if spelling.toList.isPrefixOf cs then some (word, spelling.length) else none) :
    candidate.2 ≤ cs.length := by
  obtain ⟨⟨spelling, word⟩, _, hcandidate⟩ := List.mem_filterMap.mp h
  simp only at hcandidate
  split at hcandidate
  · rename_i hprefix
    cases hcandidate
    have hle := (List.isPrefixOf_iff_prefix.mp hprefix).length_le
    rw [String.length_toList] at hle
    exact hle
  · cases hcandidate

/-- The text of an integer is the word that stands for integers. -/
theorem ofChars?_of_isIntegerText {cs : List Char} (h : IsIntegerText cs) : ofChars? cs = some .integer := by
  have hcandidates : longest? (candidates cs) = some (.integer, cs.length) := by
    rw [candidates, floatLength?_of_isIntegerText h, integerLength?_of_isIntegerText h]
    exact longest?_cons fun _ => length_le_of_mem_fixed
  rw [ofChars?, hcandidates]
  exact if_pos rfl

end Word

/-! ## Writing and reading -/

namespace Integer

/-- The characters of an integer's text. -/
theorem toList_text (n : Integer) :
    n.text.toList =
      if n < 0 then '-' :: Text.numeral n.toInt.natAbs else Text.numeral n.toInt.natAbs :=
  String.toList_ofList

/-- Numbers are written as numerals. -/
theorem isNumeral_numeral (n : Nat) : Text.isNumeral (Text.numeral n) = true := by
  have hall : ∀ c ∈ Text.numeral n, c.isDigit = true := fun c hc =>
    Nat.isDigit_of_mem_toDigits (by decide) (by decide) hc
  have hne : Text.numeral n ≠ [] := Nat.toDigits_ne_nil
  simp only [Text.isNumeral, Bool.and_eq_true, Bool.not_eq_true', List.isEmpty_eq_false_iff, List.all_eq_true]
  exact ⟨hne, hall⟩

/-- The text of an integer is a run of digits, with a minus sign or without. -/
theorem isIntegerText_text (n : Integer) : Word.IsIntegerText n.text.toList := by
  refine ⟨Text.numeral n.toInt.natAbs, isNumeral_numeral _, ?_⟩
  rw [toList_text]
  split
  · exact .inr rfl
  · exact .inl rfl

/-- The text of an integer holds digits and minus signs only. -/
theorem mem_text {n : Integer} {c : Char} (h : c ∈ n.text.toList) : c = '-' ∨ c.isDigit = true :=
  n.isIntegerText_text.mem h

/-- A number in range is held by the word with that value. -/
theorem ofInt?_toInt (n : Integer) : ofInt? n.toInt = some n := by
  have hrange : Int64.minValue.toInt ≤ n.toInt ∧ n.toInt ≤ Int64.maxValue.toInt := by
    have := n.toInt_lt
    have := n.le_toInt
    rw [Int64.toInt_minValue, Int64.toInt_maxValue]
    omega
  rw [ofInt?, dif_pos hrange]
  congr 1
  rw [← Int64.toInt_inj, Int64.toInt_ofIntLE]

/-- A numeral is read as its value. -/
theorem parse?_of_isNumeral {digits : List Char} (h : Text.isNumeral digits = true) :
    parse? digits = ofInt? (Text.numeralValue digits) := by
  obtain ⟨d, ds, rfl, hall⟩ := Word.exists_cons_of_isNumeral h
  have hdigit := hall d List.mem_cons_self
  have hplus : d ≠ '+' := by
    rintro rfl
    revert hdigit
    decide
  unfold parse?
  split
  rename_i negative rest hsplit
  split at hsplit
  · rename_i heq
    cases heq
    exact absurd rfl (Word.ne_minus_of_isDigit hdigit)
  · rename_i heq
    cases heq
    exact absurd rfl hplus
  · cases hsplit
    rw [if_pos h]
    rfl

/-- A numeral behind a minus sign is read as its value negated. -/
theorem parse?_minus_of_isNumeral {digits : List Char} (h : Text.isNumeral digits = true) :
    parse? ('-' :: digits) = ofInt? (-Text.numeralValue digits) := by
  simp only [parse?, h]
  rfl

/-- Reading the text of an integer gives the integer. -/
theorem parse?_text (n : Integer) : parse? n.text.toList = some n := by
  have hnumeral := isNumeral_numeral n.toInt.natAbs
  have hzero : n < 0 ↔ n.toInt < 0 := Int64.lt_iff_toInt_lt
  rw [toList_text, ← ofInt?_toInt n]
  split
  · rename_i hnegative
    rw [parse?_minus_of_isNumeral hnumeral, Text.numeralValue_numeral]
    congr 1
    have := hzero.mp hnegative
    omega
  · rename_i hnonnegative
    rw [parse?_of_isNumeral hnumeral, Text.numeralValue_numeral]
    congr 1
    have := mt hzero.mpr hnonnegative
    omega

/-- Reading an entry that is the text of an integer gives the integer. -/
theorem readEntry_text (literal : List Char) (n : Integer) :
    Literal.readEntry literal n.text.toList = .ok n := by
  have hinteger : Word.isInteger n.text.toList = true := by
    rw [Word.isInteger, Word.ofChars?_of_isIntegerText n.isIntegerText_text]
    rfl
  rw [Literal.readEntry, if_pos hinteger, parse?_text]

/-- Reading the text of an integer as a token gives the integer. -/
theorem readInteger_text (n : Integer) : Literal.readInteger n.text.toList = .ok n := by
  rw [Literal.readInteger, parse?_text]

end Integer

end StackLang
