import StackLang.Proofs.ArrayText
import StackLang.Proofs.ExactIntegers
import StackLang.Proofs.Words

/-!
# The grammar of array literals

An array literal is a row of at least two integers in brackets, or at least one such row in another pair of brackets, if
all rows are of one length. Commas separate integers and rows, and blanks may stand around every part. The grammar is
stated for whole numbers of any size, so that texts which follow it and texts whose numbers are in range are told apart.

Reading a text that follows the grammar gives the array of its numbers, or fails because one of them is out of range.
-/

namespace StackLang

open Integer (Fits)
open Text (isBlank trim trimStart trimEnd splitOn Trimmed Padded)

namespace Literal

/-! ## The grammar -/

/-- Whether a text is a number: digits, with a minus sign or without. -/
inductive NumberForm : Int → List Char → Prop
  | unsigned {digits : List Char} (h : Text.isNumeral digits = true) : NumberForm (Text.numeralValue digits) digits
  | negative {digits : List Char} (h : Text.isNumeral digits = true) :
      NumberForm (-Text.numeralValue digits) ('-' :: digits)

/-- Whether a text is a list of items with commas between them and blanks around them. There is at least one item. -/
inductive Listed {α : Type} (Item : α → List Char → Prop) : List α → List Char → Prop
  | last {a : α} {part cs : List Char} (hitem : Item a part) (hpart : Padded part cs) : Listed Item [a] cs
  | cons {a : α} {as : List α} {part cs rest : List Char} (hitem : Item a part) (hpart : Padded part cs)
      (hrest : Listed Item as rest) : Listed Item (a :: as) (cs ++ ',' :: rest)

/-- Whether a text is a row: at least two numbers in brackets. -/
inductive RowForm : List Int → List Char → Prop
  | brackets {numbers : List Int} {inside : List Char} (hlisted : Listed NumberForm numbers inside)
      (hmany : 2 ≤ numbers.length) : RowForm numbers ('[' :: inside ++ [']'])

/-- Whether a text is an array literal with given rows: a row, or rows of one length in brackets. -/
inductive ArrayForm : List (List Int) → List Char → Prop
  | vector {numbers : List Int} {part cs : List Char} (hrow : RowForm numbers part) (hpart : Padded part cs) :
      ArrayForm [numbers] cs
  | matrix {rows : List (List Int)} {inside cs : List Char} (hlisted : Listed RowForm rows inside)
      (hequal : ∀ row ∈ rows, ∀ row' ∈ rows, row.length = row'.length) (hpart : Padded ('[' :: inside ++ [']']) cs) :
      ArrayForm rows cs

/-- The rows of an array value. One row is a vector. -/
def arrayValue : IntMatrix → Value
  | [row] => .vector row
  | rows => .matrix rows

/-- The numbers in some rows of integers. -/
def exactRows (rows : IntMatrix) : List (List Int) := rows.map fun row => row.map Int64.toInt

/-- The integer with a value, if it is in range. -/
def narrow (n : Int) : Except Cause Integer :=
  match Integer.ofInt? n with
  | some k => .ok k
  | none => .error .literalTooLarge

/-- The rows of integers with given values, if all of them are in range. -/
def narrowRows (rows : List (List Int)) : Except Cause IntMatrix := rows.mapM fun row => row.mapM narrow

/-! ## Parts of the grammar -/

section

variable {n : Int} {numbers : List Int} {cs part gap : List Char}

/-- A number is a run of digits, with a minus sign or without. -/
theorem NumberForm.isIntegerText (h : NumberForm n cs) : Word.IsIntegerText cs := by
  cases h with
  | unsigned h => exact ⟨_, h, .inl rfl⟩
  | negative h => exact ⟨_, h, .inr rfl⟩

/-- A run of digits, with a minus sign or without, is a number. -/
theorem exists_numberForm (h : Word.IsIntegerText cs) : ∃ n, NumberForm n cs := by
  obtain ⟨digits, hdigits, rfl | rfl⟩ := h
  · exact ⟨_, .unsigned hdigits⟩
  · exact ⟨_, .negative hdigits⟩

/-- A number has no blanks at its ends. -/
theorem NumberForm.trimmed (h : NumberForm n cs) : Trimmed cs := h.isIntegerText.trimmed

/-- A number holds none of the characters that structure an array. -/
theorem NumberForm.not_mem (h : NumberForm n cs) {c : Char} (hminus : c ≠ '-') (hdigit : c.isDigit = false) :
    c ∉ cs := by
  intro hc
  rcases h.isIntegerText.mem hc with heq | hdigit'
  · exact hminus heq
  · rw [hdigit] at hdigit'
    cases hdigit'

/-- A row has no blanks at its ends. -/
theorem RowForm.trimmed (h : RowForm numbers cs) : Trimmed cs := by
  cases h with
  | brackets => exact (Text.trimmed_singleton rfl).surround (Text.trimmed_singleton rfl) _

variable {α : Type} {Item : α → List Char → Prop} {as : List α}

namespace Listed

/-- Blanks may stand in front of a list. -/
theorem gap_append (h : Listed Item as cs) (hgap : ∀ c ∈ gap, isBlank c = true) : Listed Item as (gap ++ cs) := by
  cases h with
  | last hitem hpart => exact .last hitem (hpart.gap_append hgap)
  | cons hitem hpart hrest =>
    rw [← List.append_assoc]
    exact .cons hitem (hpart.gap_append hgap) hrest

/-- Blanks may stand behind a list. -/
theorem append_gap (h : Listed Item as cs) (hgap : ∀ c ∈ gap, isBlank c = true) : Listed Item as (cs ++ gap) := by
  induction h with
  | last hitem hpart => exact .last hitem (hpart.append_gap hgap)
  | cons hitem hpart _ ih =>
    rw [List.append_assoc, List.cons_append]
    exact .cons hitem hpart ih

/-- Blanks may stand around a list. -/
theorem of_padded (h : Listed Item as part) (hpart : Padded part cs) : Listed Item as cs := by
  obtain ⟨before, after, hbefore, hafter, rfl⟩ := hpart
  exact (h.gap_append hbefore).append_gap hafter

/-- A character that is neither blank nor a comma belongs to an item. -/
theorem not_mem {c : Char} (h : Listed Item as cs) (hblank : isBlank c = false) (hcomma : c ≠ ',')
    (hitems : ∀ a part, Item a part → c ∉ part) : c ∉ cs := by
  induction h with
  | last hitem hpart => exact hpart.not_mem hblank (hitems _ _ hitem)
  | cons hitem hpart _ ih =>
    simp only [List.mem_append, List.mem_cons, not_or]
    exact ⟨hpart.not_mem hblank (hitems _ _ hitem), hcomma, ih⟩

variable (hitems : ∀ a part, Item a part → Trimmed part)
include hitems

/-- Blanks in front of a list may be removed. -/
theorem trimStart (h : Listed Item as cs) : Listed Item as (trimStart cs) := by
  cases h with
  | last hitem hpart => exact .last hitem (hpart.trimStart (hitems _ _ hitem))
  | cons hitem hpart hrest =>
    rw [Text.trimStart_append_cons rfl]
    exact .cons hitem (hpart.trimStart (hitems _ _ hitem)) hrest

/-- Blanks behind a list may be removed. -/
theorem trimEnd (h : Listed Item as cs) : Listed Item as (trimEnd cs) := by
  induction h with
  | last hitem hpart => exact .last hitem (hpart.trimEnd (hitems _ _ hitem))
  | cons hitem hpart _ ih =>
    rw [Text.trimEnd_append_cons rfl]
    exact .cons hitem hpart ih

/-- Blanks around a list may be removed. -/
theorem trim (h : Listed Item as cs) : Listed Item as (trim cs) := by
  rw [Text.trim]
  exact (h.trimStart hitems).trimEnd hitems

/-- Behind the blanks in front of a list stands its first item. -/
theorem exists_first (h : Listed Item as cs) : ∃ a part rest, Item a part ∧ Text.trimStart cs = part ++ rest := by
  cases h with
  | last hitem hpart =>
    obtain ⟨gap, -, htrim⟩ := hpart.exists_trimStart (hitems _ _ hitem)
    have hfirst := htrim []
    rw [List.append_nil] at hfirst
    exact ⟨_, _, _, hitem, hfirst⟩
  | cons hitem hpart =>
    obtain ⟨gap, -, htrim⟩ := hpart.exists_trimStart (hitems _ _ hitem)
    exact ⟨_, _, _, hitem, htrim _⟩

end Listed

end

/-! ## Reading what follows the grammar -/

section

variable {n : Int} {numbers : List Int} {rows : List (List Int)} {cs part : List Char} (literal : List Char)

/-- Reading a number gives the integer with its value, if it is in range. -/
theorem readInteger_of_numberForm (h : NumberForm n cs) : readInteger cs = narrow n := by
  have hparse : Integer.parse? cs = Integer.ofInt? n := by
    cases h with
    | unsigned h => exact Integer.parse?_of_isNumeral h
    | negative h => exact Integer.parse?_minus_of_isNumeral h
  rw [readInteger, hparse]
  rfl

/-- An entry that is a number is read as the number. -/
theorem readEntry_of_numberForm (h : NumberForm n cs) : readEntry literal cs = narrow n := by
  rw [readEntry, if_pos (Word.isInteger_iff.mpr h.isIntegerText), ← readInteger_of_numberForm h]
  rfl

/-- Reading a list of numbers, piece by piece, gives the integers with their values. -/
theorem mapM_readEntry_of_listed (h : Listed NumberForm numbers cs) :
    ((splitOn ',' cs).mapM fun entry => readEntry literal (trim entry)) = numbers.mapM narrow := by
  have hentry {n : Int} {part cs : List Char} (hitem : NumberForm n part) (hpart : Padded part cs) :
      ',' ∉ cs ∧ readEntry literal (trim cs) = narrow n := by
    refine ⟨hpart.not_mem rfl (hitem.not_mem (by decide) rfl), ?_⟩
    rw [hpart.trim_eq hitem.trimmed, readEntry_of_numberForm literal hitem]
  induction h with
  | last hitem hpart =>
    obtain ⟨hcomma, hread⟩ := hentry hitem hpart
    rw [Text.splitOn_eq, List.splitOn_eq_singleton hcomma, List.mapM_cons, hread]
    rfl
  | cons hitem hpart _ ih =>
    obtain ⟨hcomma, hread⟩ := hentry hitem hpart
    rw [Text.splitOn_eq, List.splitOn_append_cons_self_of_not_mem hcomma, ← Text.splitOn_eq, List.mapM_cons, hread, ih,
      List.mapM_cons]

/-- Reading at least two numbers gives the row of their integers. -/
theorem readRow_of_listed (h : Listed NumberForm numbers cs) (hmany : 2 ≤ numbers.length) :
    readRow literal cs = numbers.mapM narrow := by
  rw [readRow, mapM_readEntry_of_listed literal h]
  cases hrow : numbers.mapM narrow with
  | error cause => rfl
  | ok row =>
    have hlength : row.length = numbers.length := Yields.length_mapM narrow numbers row hrow
    exact if_neg (by omega)

/-- Behind a row, the text ends or goes on with a row of the same length. -/
theorem readRows_of_rowForm {width? : Option Nat} (h : RowForm numbers part)
    (hwidth : ∀ width ∈ width?, width = numbers.length) (after : List Char) :
    readRows literal width? (part ++ after) = do
      let entries ← numbers.mapM narrow
      match ← afterComma literal after with
      | none => return [entries]
      | some rest => return entries :: (← readRows literal (some numbers.length) rest) := by
  obtain ⟨hlisted, hmany⟩ := h
  rename_i inside
  have hbracket : ']' ∉ inside := hlisted.not_mem rfl (by decide) fun _ _ hitem => hitem.not_mem (by decide) rfl
  have hcut : cutRow literal ('[' :: inside ++ [']'] ++ after) = .ok (inside, after) := by
    rw [List.append_assoc]
    exact cutRow_bracketed literal hbracket after
  have hread : readRow literal inside = numbers.mapM narrow := readRow_of_listed literal hlisted hmany
  have hlength {entries : IntVector} (h : numbers.mapM narrow = .ok entries) : entries.length = numbers.length :=
    Yields.length_mapM narrow numbers entries h
  rw [readRows_step hcut fun entries h => hlength (hread ▸ h) ▸ hwidth, hread]
  cases hentries : numbers.mapM narrow with
  | error cause => rfl
  | ok entries =>
    rw [← hlength hentries]
    rfl

/-- Reading rows of one length gives the rows of their integers. -/
theorem readRows_of_listed {width : Nat} (h : Listed RowForm rows cs) (hlength : ∀ row ∈ rows, row.length = width)
    {width? : Option Nat} (hwidth : ∀ w ∈ width?, w = width) :
    readRows literal width? (trimStart cs) = narrowRows rows := by
  induction h generalizing width? with
  | last hrow hpart =>
    obtain ⟨gap, hgap, htrim⟩ := hpart.exists_trimStart hrow.trimmed
    have hend : afterComma literal gap = .ok none := by
      have hempty : trimStart (gap ++ []) = trimStart [] := Text.trimStart_gap_append hgap []
      rw [List.append_nil] at hempty
      rw [afterComma, hempty]
      rfl
    have hcs := htrim []
    rw [List.append_nil, List.append_nil] at hcs
    rw [List.forall_mem_singleton] at hlength
    rw [hcs, readRows_of_rowForm literal hrow (hlength ▸ hwidth), hend]
    rfl
  | @cons numbers rows _ _ rest hrow hpart _ ih =>
    obtain ⟨gap, hgap, htrim⟩ := hpart.exists_trimStart hrow.trimmed
    have hcomma : afterComma literal (gap ++ ',' :: rest) = .ok (some (trimStart rest)) := by
      rw [afterComma, Text.trimStart_gap_append hgap, Text.trimStart_cons rfl]
      rfl
    obtain ⟨hfirst, hlength⟩ := List.forall_mem_cons.mp hlength
    have hrest : readRows literal (some numbers.length) (trimStart rest) = narrowRows rows := by
      refine ih hlength ?_
      rintro w ⟨⟩
      exact hfirst
    rw [htrim, readRows_of_rowForm literal hrow (hfirst ▸ hwidth), hcomma, narrowRows, List.mapM_cons]
    rw [narrowRows] at hrest
    rw [← hrest]
    rfl

/-- Between the outer brackets there are rows, if what is there starts with a bracket, and otherwise one row. -/
theorem readArray_of_brackets {literal inside : List Char} (h : trim literal = '[' :: inside ++ [']']) :
    readArray literal =
      if (trim inside).head? = some '[' then (readRows literal none (trim inside)).map arrayValue
      else (readRow literal (trim inside)).map .vector := by
  rw [readArray, h, Text.between?_delimited, Option.map_some]
  dsimp only
  by_cases hhead : (trim inside).head? = some '['
  · rw [if_pos hhead, if_pos hhead]
    cases readRows literal none (trim inside) with
    | error cause => rfl
    | ok rows =>
      cases rows with
      | nil => rfl
      | cons row rows => cases rows <;> rfl
  · rw [if_neg hhead, if_neg hhead]
    cases readRow literal (trim inside) <;> rfl

/-- Reading a text that follows the grammar gives the array of its integers, if all of them are in range. -/
theorem readArray_of_form {literal : List Char} (h : ArrayForm rows literal) :
    readArray literal = (narrowRows rows).map arrayValue := by
  cases h with
  | @vector numbers part _ hrow hpart =>
    have htrim : trim literal = part := hpart.trim_eq hrow.trimmed
    obtain ⟨hlisted, hmany⟩ := hrow
    rename_i inside
    have hinside : Listed NumberForm numbers (trim inside) := hlisted.trim fun _ _ => NumberForm.trimmed
    have hhead : (trim inside).head? ≠ some '[' := by
      obtain ⟨n, part, rest, hnumber, hfirst⟩ := hinside.exists_first fun _ _ => NumberForm.trimmed
      rw [Text.trimStart_trim] at hfirst
      obtain ⟨c, cs, rfl⟩ := List.exists_cons_of_ne_nil hnumber.trimmed.ne_nil
      rw [hfirst]
      rintro ⟨⟩
      exact hnumber.not_mem (by decide) rfl List.mem_cons_self
    rw [readArray_of_brackets htrim, if_neg hhead, readRow_of_listed literal hinside hmany, narrowRows, List.mapM_cons]
    cases numbers.mapM narrow <;> rfl
  | @matrix _ inside _ hlisted hequal hpart =>
    have htrim : trim literal = '[' :: inside ++ [']'] :=
      hpart.trim_eq ((Text.trimmed_singleton rfl).surround (Text.trimmed_singleton rfl) inside)
    have hinside : Listed RowForm rows (trim inside) := hlisted.trim fun _ _ => RowForm.trimmed
    have hhead : (trim inside).head? = some '[' := by
      obtain ⟨row, part, rest, ⟨-, -⟩, hfirst⟩ := hinside.exists_first fun _ _ => RowForm.trimmed
      rw [Text.trimStart_trim] at hfirst
      rw [hfirst]
      rfl
    obtain ⟨width, hwidth⟩ : ∃ width, ∀ row ∈ rows, row.length = width := by
      cases rows with
      | nil => cases hlisted
      | cons row rows => exact ⟨row.length, fun row' hrow' => hequal row' hrow' row List.mem_cons_self⟩
    have hrows : readRows literal none (trimStart (trim inside)) = narrowRows rows :=
      readRows_of_listed literal hinside hwidth (by simp)
    rw [Text.trimStart_trim] at hrows
    rw [readArray_of_brackets htrim, if_pos hhead, hrows]

end

/-! ## Numbers in range -/

/-- A number is out of range, or it is the value of the integer that is read. -/
theorem narrow_cases (n : Int) :
    (∃ k : Integer, k.toInt = n ∧ narrow n = .ok k) ∨ narrow n = .error .literalTooLarge ∧ ¬ Fits n := by
  by_cases h : Int64.minValue.toInt ≤ n ∧ n ≤ Int64.maxValue.toInt
  · left
    refine ⟨Int64.ofIntLE n h.1 h.2, Int64.toInt_ofIntLE, ?_⟩
    rw [narrow, Integer.ofInt?, dif_pos h]
  · right
    refine ⟨?_, h⟩
    rw [narrow, Integer.ofInt?, dif_neg h]

/-- A list is computed element by element, or its first element without a result fails. -/
theorem mapM_cases {α β : Type} {f : α → Except Cause β} {g : β → α} {cause : Cause}
    (h : ∀ a, (∃ b, g b = a ∧ f a = .ok b) ∨ f a = .error cause) (as : List α) :
    (∃ bs : List β, bs.map g = as ∧ as.mapM f = .ok bs) ∨ as.mapM f = .error cause := by
  induction as with
  | nil => exact .inl ⟨[], rfl, rfl⟩
  | cons a as ih =>
    rw [List.mapM_cons]
    rcases h a with ⟨b, rfl, ha⟩ | ha
    · rcases ih with ⟨bs, rfl, has⟩ | has
      · left
        rw [ha, has]
        exact ⟨b :: bs, rfl, rfl⟩
      · right
        rw [ha, has]
        rfl
    · right
      rw [ha]
      rfl

/-- Rows whose numbers are all in range are those of integers. -/
theorem narrowRows_exactRows (rows : IntMatrix) : narrowRows (exactRows rows) = .ok rows := by
  refine mapM_map_ok fun row _ => mapM_map_ok fun n _ => ?_
  rw [narrow, Integer.ofInt?_toInt]

/-- Rows are those of integers, or too large. -/
theorem narrowRows_cases (rows : List (List Int)) :
    (∃ rows' : IntMatrix, exactRows rows' = rows ∧ narrowRows rows = .ok rows') ∨
      narrowRows rows = .error .literalTooLarge := by
  refine mapM_cases (fun numbers => ?_) rows
  exact mapM_cases (fun n => (narrow_cases n).imp_right And.left) numbers

/-- Rows with a number out of range are too large. -/
theorem narrowRows_of_not_fits {rows : List (List Int)} (h : ∃ row ∈ rows, ∃ n ∈ row, ¬ Fits n) :
    narrowRows rows = .error .literalTooLarge := by
  rcases narrowRows_cases rows with ⟨rows, rfl, -⟩ | herror
  · obtain ⟨row, hrow, n, hn, hlarge⟩ := h
    obtain ⟨row, -, rfl⟩ := List.mem_map.mp hrow
    obtain ⟨k, -, rfl⟩ := List.mem_map.mp hn
    exact absurd (Integer.fits_toInt k) hlarge
  · exact herror

end Literal

end StackLang
