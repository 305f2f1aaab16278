import StackLang.Literal.Lambda
import StackLang.Proofs.IntegerText
import StackLang.Proofs.StackSteps

/-!
# The grammar of lambda literals

A lambda literal is a parameter count, a bar and a body between braces. Blanks may stand around the literal, the count
and the body. The count ends at the first bar, and the closing brace is the last character, so the body may hold bars
and braces of its own.

The grammar is stated for counts of any size. Reading a text that follows it gives the count and the body without the
blanks around it, or fails because the count is too large. A text that does not follow it is malformed.
-/

namespace StackLang.Literal

open Text (trim Trimmed Padded)

/-- Whether a text is a lambda literal with the given digits as its parameter count and the given body. -/
inductive LambdaForm (count body literal : List Char) : Prop
  | braces {front : List Char} (hcount : Text.isNumeral count = true) (hfront : Padded count front)
      (hbar : '|' ∉ front) (hliteral : Padded ('\x7b' :: (front ++ '|' :: body) ++ ['\x7d']) literal)

variable {count body literal : List Char}

/-- A numeral has no blanks. -/
theorem trimmed_of_isNumeral (h : Text.isNumeral count = true) : Trimmed count :=
  Word.IsIntegerText.trimmed ⟨count, h, .inl rfl⟩

/-- Reading a lambda literal gives its parameter count, which has to be below the bound, and its body without the
blanks around it. -/
theorem readLambda_of_form (h : LambdaForm count body literal) :
    readLambda literal =
      if Text.numeralValue count < countBound then .ok { arity := Text.numeralValue count, body := trim body }
      else .error .literalTooLarge := by
  obtain @⟨front, hcount, hfront, hbar, hliteral⟩ := h
  have hbraces : Trimmed ('\x7b' :: (front ++ '|' :: body) ++ ['\x7d']) :=
    (Text.trimmed_singleton rfl).surround (Text.trimmed_singleton rfl) (front ++ '|' :: body)
  have htrim : trim front = count := hfront.trim_eq (trimmed_of_isNumeral hcount)
  have hbody : (front ++ '|' :: body).drop (front.length + 1) = body := by
    rw [← List.drop_drop, List.drop_left]
    rfl
  rw [readLambda, hliteral.trim_eq hbraces, Text.between?_delimited]
  simp only [Text.position?_append hbar, List.take_left, htrim, hcount, hbody, if_true]

/-- A text follows the grammar, or reading finds it malformed. -/
theorem lambdaForm_or_malformed (literal : List Char) :
    (∃ count body, LambdaForm count body literal) ∨
      ∃ malformation, readLambda literal = malformed literal malformation := by
  have hliteral : Padded (trim literal) literal := Text.padded_trim literal
  unfold readLambda
  cases hbraces : Text.between? '\x7b' '\x7d' (trim literal) with
  | none => exact .inr ⟨.noBraces, rfl⟩
  | some inner =>
    rw [Text.eq_of_between? hbraces] at hliteral
    cases hposition : Text.position? '|' inner with
    | none => exact .inr ⟨.noBar, by simp only [hposition]⟩
    | some position =>
      obtain ⟨front, body, hbar, rfl, rfl⟩ := Text.exists_append_of_position? hposition
      simp only [hposition, List.take_left]
      by_cases hcount : Text.isNumeral (trim front) = true
      · exact .inl ⟨trim front, body, .braces hcount (Text.padded_trim front) hbar hliteral⟩
      · exact .inr ⟨.badParameterCount, if_neg hcount⟩

/-- A lambda literal can be read exactly if it follows the grammar with a parameter count below the bound. -/
theorem readLambda_eq_ok_iff {lambda : Lambda} :
    readLambda literal = .ok lambda ↔
      ∃ count body, LambdaForm count body literal ∧ Text.numeralValue count < countBound ∧
        lambda = { arity := Text.numeralValue count, body := trim body } := by
  constructor
  · intro hread
    rcases lambdaForm_or_malformed literal with ⟨count, body, hform⟩ | ⟨malformation, hmalformed⟩
    · rw [readLambda_of_form hform] at hread
      split at hread
      · rename_i hbound
        cases hread
        exact ⟨count, body, hform, hbound, rfl⟩
      · cases hread
    · rw [hmalformed] at hread
      cases hread
  · rintro ⟨count, body, hform, hbound, rfl⟩
    rw [readLambda_of_form hform, if_pos hbound]

/-- A lambda literal is too large exactly if it follows the grammar with a parameter count that is not below the
bound. -/
theorem readLambda_eq_tooLarge_iff :
    readLambda literal = .error .literalTooLarge ↔
      ∃ count body, LambdaForm count body literal ∧ countBound ≤ Text.numeralValue count := by
  constructor
  · intro hread
    rcases lambdaForm_or_malformed literal with ⟨count, body, hform⟩ | ⟨malformation, hmalformed⟩
    · rw [readLambda_of_form hform] at hread
      split at hread
      · cases hread
      · rename_i hbound
        exact ⟨count, body, hform, Nat.not_lt.mp hbound⟩
    · rw [hmalformed] at hread
      cases hread
  · rintro ⟨count, body, hform, hbound⟩
    rw [readLambda_of_form hform, if_neg (Nat.not_lt.mpr hbound)]

/-- A lambda literal is malformed exactly if it does not follow the grammar. -/
theorem readLambda_eq_malformed_iff :
    (∃ malformation, readLambda literal = malformed literal malformation) ↔
      ¬ ∃ count body, LambdaForm count body literal := by
  constructor
  · rintro ⟨malformation, hread⟩ ⟨count, body, hform⟩
    rw [readLambda_of_form hform] at hread
    split at hread <;> cases hread
  · exact (lambdaForm_or_malformed literal).resolve_left

/-- Reading on a line accepts exactly the texts that follow the grammar with a parameter count below the bound. A text
that follows it otherwise is too large, and a text that does not follow it is malformed. -/
theorem readLambda_follows_grammar (literal : String) (line : Nat) (s : Stack) :
    let result := LocatedStep.lift (readLambdaAt line literal.toList) s
    (∀ lambda, result = .ok lambda s ↔
      ∃ count body, LambdaForm count body literal.toList ∧ Text.numeralValue count < countBound ∧
        lambda = { arity := Text.numeralValue count, body := trim body }) ∧
      (result = .error ⟨line, .literalTooLarge⟩ s ↔
        ∃ count body, LambdaForm count body literal.toList ∧ countBound ≤ Text.numeralValue count) ∧
      ((∃ malformation, result = .error ⟨line, .malformedLiteral literal malformation⟩ s) ↔
        ¬ ∃ count body, LambdaForm count body literal.toList) := by
  intro result
  simp only [result, readLambdaAt_eq]
  refine ⟨fun lambda => ?_, ?_, ?_⟩
  · rw [← readLambda_eq_ok_iff]
    exact LocatedStep.lift_stamp_eq_ok_iff
  · rw [← readLambda_eq_tooLarge_iff]
    exact LocatedStep.lift_stamp_eq_error_iff
  · rw [← readLambda_eq_malformed_iff]
    simp only [malformed, String.ofList_toList]
    exact exists_congr fun malformation => LocatedStep.lift_stamp_eq_error_iff

-- The body of the outer literal ends at the last brace, and the count at the first bar.
example : readLambda " \x7b 002 |\x7b1|x0\x7d x1 | \x7d\x7d\n".toList =
    .ok { arity := 2, body := "\x7b1|x0\x7d x1 | \x7d".toList } := by rfl

end StackLang.Literal
