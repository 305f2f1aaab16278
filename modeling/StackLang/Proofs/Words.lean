import StackLang.Proofs.IntegerText

/-!
# Which texts are words

The longest word at the start of a text decides what the text is, and it counts only as the whole text. So a text is a
word with a fixed spelling exactly if it is this spelling, and an integer exactly if it is a run of digits, with a minus
sign or without.
-/

namespace StackLang.Word

variable {cs : List Char} {word : Word}

/-- The word that a text is stands at its start and is as long as the text. -/
theorem mem_candidates_of_ofChars? (h : ofChars? cs = some word) : (word, cs.length) ∈ candidates cs := by
  unfold ofChars? at h
  cases hlongest : longest? (candidates cs) with
  | none =>
    rw [hlongest] at h
    cases h
  | some best =>
    obtain ⟨word', length⟩ := best
    simp only [hlongest] at h
    split at h
    · rename_i hlength
      cases h
      rw [← hlength]
      exact mem_of_longest? hlongest
    · cases h

/-- A word at the start of a text is a float, an integer, or a fixed spelling that the text starts with. -/
theorem cases_of_mem_candidates {length : Nat} (h : (word, length) ∈ candidates cs) :
    (word = .float ∧ floatLength? cs = some length) ∨ (word = .integer ∧ integerLength? cs = some length) ∨
      ∃ spelling, (spelling, word) ∈ fixed ∧ spelling.toList <+: cs ∧ spelling.toList.length = length := by
  rw [candidates, List.mem_append, List.mem_append] at h
  rcases h with (hfloat | hinteger) | hfixed
  · obtain ⟨length', hlength, heq⟩ := Option.map_eq_some_iff.mp (Option.mem_toList.mp hfloat)
    cases heq
    exact .inl ⟨rfl, hlength⟩
  · obtain ⟨length', hlength, heq⟩ := Option.map_eq_some_iff.mp (Option.mem_toList.mp hinteger)
    cases heq
    exact .inr (.inl ⟨rfl, hlength⟩)
  · obtain ⟨⟨spelling, word'⟩, hmem, hsome⟩ := List.mem_filterMap.mp hfixed
    simp only at hsome
    split at hsome
    · rename_i hstart
      cases hsome
      exact .inr (.inr ⟨spelling, hmem, List.isPrefixOf_iff_prefix.mp hstart, String.length_toList⟩)
    · cases hsome

/-- A text that is a word is a float or an integer, or has a fixed spelling. -/
theorem cases_of_ofChars? (h : ofChars? cs = some word) :
    (word = .float ∧ floatLength? cs = some cs.length) ∨ (word = .integer ∧ integerLength? cs = some cs.length) ∨
      ∃ spelling, (spelling, word) ∈ fixed ∧ cs = spelling.toList := by
  have hcases := cases_of_mem_candidates (mem_candidates_of_ofChars? h)
  rcases hcases with hfloat | hinteger | ⟨spelling, hmem, hstart, hlength⟩
  · exact .inl hfloat
  · exact .inr (.inl hinteger)
  · exact .inr (.inr ⟨spelling, hmem, (hstart.eq_of_length hlength).symm⟩)

/-- A fixed spelling is its word. -/
theorem ofChars?_of_mem_fixed : ∀ entry ∈ fixed, ofChars? entry.1.toList = some entry.2 := by
  decide

/-- Numbers have no fixed spelling. -/
theorem not_number_of_mem_fixed : ∀ entry ∈ fixed, entry.2 ≠ .float ∧ entry.2 ≠ .integer := by
  decide

/-- The digits at the start of a text are a numeral, if there are some. -/
theorem isNumeral_takeWhile (hne : cs.takeWhile Char.isDigit ≠ []) :
    Text.isNumeral (cs.takeWhile Char.isDigit) = true := by
  simp [Text.isNumeral, hne]

/-- An integer that is found stands at the start of the text. -/
theorem exists_of_integerLength? {length : Nat} (h : integerLength? cs = some length) :
    ∃ start, start <+: cs ∧ IsIntegerText start ∧ start.length = length := by
  unfold integerLength? at h
  split at h
  rename_i sign rest hsplit
  split at h
  · cases h
  · rename_i digits hnone
    have hnumeral : Text.isNumeral (rest.takeWhile Char.isDigit) = true :=
      isNumeral_takeWhile fun hempty => hnone (by rw [hempty]; rfl)
    cases h
    split at hsplit
    · cases hsplit
      refine ⟨'-' :: rest.takeWhile Char.isDigit, ?_, ⟨_, hnumeral, .inr rfl⟩, ?_⟩
      · exact List.cons_prefix_cons.mpr ⟨rfl, List.takeWhile_prefix _⟩
      · rw [List.length_cons, Nat.add_comm]
    · cases hsplit
      exact ⟨_, List.takeWhile_prefix _, ⟨_, hnumeral, .inl rfl⟩, (Nat.zero_add _).symm⟩

/-- A text that is an integer over its whole length is a run of digits, with a minus sign or without. -/
theorem isIntegerText_of_integerLength? (h : integerLength? cs = some cs.length) : IsIntegerText cs := by
  obtain ⟨start, hstart, hinteger, hlength⟩ := exists_of_integerLength? h
  rwa [← hstart.eq_of_length hlength]

/-- A text is an integer exactly if it is a run of digits, with a minus sign or without. -/
theorem isInteger_iff : isInteger cs = true ↔ IsIntegerText cs := by
  rw [isInteger, beq_iff_eq]
  refine ⟨fun h => ?_, ofChars?_of_isIntegerText⟩
  rcases cases_of_ofChars? h with ⟨hfloat, -⟩ | ⟨-, hlength⟩ | ⟨spelling, hmem, -⟩
  · cases hfloat
  · exact isIntegerText_of_integerLength? hlength
  · exact absurd rfl (not_number_of_mem_fixed _ hmem).2

end StackLang.Word
