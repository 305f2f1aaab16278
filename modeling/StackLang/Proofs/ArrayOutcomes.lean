import StackLang.Proofs.ArrayGrammar
import StackLang.Proofs.StackSteps

/-!
# Reading array literals by their grammar

Reading accepts exactly the texts that follow the grammar with all numbers in range. A number out of range is noticed
where it is read, also in a text that turns out not to follow the grammar behind it. So such a text is malformed for
certain only if every entry that is a number is in range.
-/

namespace StackLang

open Integer (Fits)
open Text (isBlank trim splitOn between? Padded)

namespace Literal

/-! ## Entries -/

/-- Whether a part stands in a text as an entry: behind an opening bracket or a comma and before a comma or a closing
bracket, with blanks around it. -/
def HasEntry (cs part : List Char) : Prop :=
  ∃ before opening cell closing after, (opening = '[' ∨ opening = ',') ∧ (closing = ',' ∨ closing = ']') ∧
    Padded part cell ∧ cs = before ++ opening :: cell ++ closing :: after

/-- Whether an entry of a text is a number out of range. -/
def HasLargeEntry (cs : List Char) : Prop := ∃ part n, HasEntry cs part ∧ NumberForm n part ∧ ¬ Fits n

/-- An entry of a part is an entry of the whole. -/
theorem HasLargeEntry.surround {cs : List Char} (h : HasLargeEntry cs) (front back : List Char) :
    HasLargeEntry (front ++ cs ++ back) := by
  obtain ⟨part, n, ⟨before, opening, cell, closing, after, hopening, hclosing, hcell, rfl⟩, hn, hlarge⟩ := h
  refine ⟨part, n, ⟨front ++ before, opening, cell, closing, after ++ back, hopening, hclosing, hcell, ?_⟩, hn, hlarge⟩
  simp

/-! ## Outcomes -/

/-- The possible outcomes of reading a part of a literal: the part is well formed, the literal is malformed, or a number
is too large. -/
inductive Outcome {α : Type} (literal : List Char) (WellFormed : α → Prop) (TooLarge : Prop) : Except Cause α → Prop
  | ok {a : α} (h : WellFormed a) : Outcome literal WellFormed TooLarge (.ok a)
  | malformed (malformation : Malformation) : Outcome literal WellFormed TooLarge (malformed literal malformation)
  | tooLarge (h : TooLarge) : Outcome literal WellFormed TooLarge (.error .literalTooLarge)

namespace Outcome

variable {α β : Type} {literal : List Char} {P : α → Prop} {Q : β → Prop} {TooLarge TooLarge' : Prop}
  {x : Except Cause α}

/-- A part is read and then another one. -/
theorem bind {f : α → Except Cause β} (hx : Outcome literal P TooLarge x)
    (hlarge : TooLarge → TooLarge') (hf : ∀ a, P a → Outcome literal Q TooLarge' (f a)) :
    Outcome literal Q TooLarge' (x >>= f) := by
  cases hx with
  | ok h => exact hf _ h
  | malformed malformation => exact .malformed malformation
  | tooLarge h => exact .tooLarge (hlarge h)

/-- Another part fails as this one does. -/
theorem error {cause : Cause} (h : Outcome literal P TooLarge (.error cause)) (hlarge : TooLarge → TooLarge') :
    Outcome literal Q TooLarge' (.error cause) := by
  cases h with
  | malformed malformation => exact .malformed malformation
  | tooLarge h => exact .tooLarge (hlarge h)

/-- A part that is read is well formed. -/
theorem wellFormed {a : α} (h : Outcome literal P TooLarge (.ok a)) : P a := by
  cases h with
  | ok h => exact h

/-- A value is made of what is read. -/
theorem map {f : α → β} (hx : Outcome literal P TooLarge x) (hlarge : TooLarge → TooLarge')
    (hf : ∀ a, x = .ok a → P a → Q (f a)) : Outcome literal Q TooLarge' (x.map f) := by
  cases hx with
  | ok h => exact .ok (hf _ rfl h)
  | malformed malformation => exact .malformed malformation
  | tooLarge h => exact .tooLarge (hlarge h)

end Outcome

section

variable (literal : List Char)

/-- An entry is a number in range, or a number out of range, or none at all. -/
theorem readEntry_outcome (cs : List Char) :
    Outcome literal (fun n => NumberForm n.toInt cs) (∃ n, NumberForm n cs ∧ ¬ Fits n) (readEntry literal cs) := by
  by_cases h : Word.isInteger cs = true
  · obtain ⟨n, hn⟩ := exists_numberForm (Word.isInteger_iff.mp h)
    rw [readEntry_of_numberForm literal hn]
    rcases narrow_cases n with ⟨k, rfl, hk⟩ | ⟨hlarge, hfits⟩
    · rw [hk]
      exact .ok hn
    · rw [hlarge]
      exact .tooLarge ⟨n, hn, hfits⟩
  · rw [readEntry, if_neg h]
    exact .malformed _

/-- Pieces are read as a list of numbers. Each piece stands behind a bracket or a comma in the literal, and before the
first and behind the last one the literal may have more blanks. -/
theorem mapM_readEntry_outcome {pieces : List (List Char)} (hne : pieces ≠ []) {opening : Char}
    (hopening : opening = '[' ∨ opening = ',') {gap gap' : List Char} (hgap : ∀ c ∈ gap, isBlank c = true)
    (hgap' : ∀ c ∈ gap', isBlank c = true) :
    Outcome literal (fun entries => Listed NumberForm (entries.map Int64.toInt) ([','].intercalate pieces))
      (HasLargeEntry (opening :: gap ++ [','].intercalate pieces ++ gap' ++ [']']))
      (pieces.mapM fun entry => readEntry literal (trim entry)) := by
  -- Behind the first piece, a comma takes the place of the opening bracket, and no more blanks follow it.
  induction pieces generalizing opening gap with
  | nil => exact absurd rfl hne
  | cons piece pieces ih =>
    rw [List.mapM_cons]
    cases pieces with
    | nil =>
      rw [List.intercalate_singleton]
      refine (readEntry_outcome literal (trim piece)).bind ?_ fun n hn => ?_
      · rintro ⟨n, hn, hlarge⟩
        refine ⟨trim piece, n, ⟨[], opening, gap ++ piece ++ gap', ']', [], hopening, .inr rfl, ?_, ?_⟩, hn, hlarge⟩
        · exact ((Text.padded_trim piece).gap_append hgap).append_gap hgap'
        · simp
      · exact .ok (.last hn (Text.padded_trim piece))
    | cons piece' pieces =>
      rw [List.intercalate_cons_cons]
      refine (readEntry_outcome literal (trim piece)).bind ?_ fun n hn => ?_
      · rintro ⟨n, hn, hlarge⟩
        refine ⟨trim piece, n, ⟨[], opening, gap ++ piece, ',', [','].intercalate (piece' :: pieces) ++ gap' ++ [']'],
          hopening, .inl rfl, ?_, ?_⟩, hn, hlarge⟩
        · exact (Text.padded_trim piece).gap_append hgap
        · simp
      · have hrest := ih (List.cons_ne_nil piece' pieces) (.inr rfl) (List.forall_mem_nil _)
        refine hrest.bind (fun hlarge => ?_) fun entries hentries => ?_
        · have hfront := hlarge.surround (opening :: gap ++ piece) []
          simpa using hfront
        · refine .ok ?_
          rw [List.append_assoc]
          exact .cons hn (Text.padded_trim piece) hentries

/-- What stands between the brackets of a row is a list of at least two numbers. -/
theorem readRow_outcome {row cell : List Char} (hcell : Padded row cell) :
    Outcome literal (fun entries => Listed NumberForm (entries.map Int64.toInt) row ∧ 2 ≤ entries.length)
      (HasLargeEntry ('[' :: cell ++ [']'])) (readRow literal row) := by
  obtain ⟨gap, gap', hgap, hgap', rfl⟩ := hcell
  have hpieces : [','].intercalate (splitOn ',' row) = row := by rw [Text.splitOn_eq, List.intercalate_splitOn]
  have hne : splitOn ',' row ≠ [] := by
    rw [Text.splitOn_eq]
    exact List.splitOn_ne_nil ',' row
  have hentries := mapM_readEntry_outcome literal hne (.inl rfl) hgap hgap'
  rw [hpieces] at hentries
  refine hentries.bind ?_ fun entries hlisted => ?_
  · simp only [List.cons_append, List.append_assoc, imp_self]
  · by_cases hmany : entries.length < 2
    · rw [if_pos hmany]
      exact .malformed _
    · rw [if_neg hmany]
      exact .ok ⟨hlisted, by omega⟩

/-- A row is cut off between its brackets. -/
theorem cutRow_outcome (cs : List Char) :
    Outcome literal (fun parts => cs = '[' :: parts.1 ++ ']' :: parts.2) False (cutRow literal cs) := by
  by_cases h : ∃ body, cs = '[' :: body
  · obtain ⟨body, rfl⟩ := h
    by_cases hclose : ']' ∈ body
    · obtain ⟨row, rest, rfl, hrow⟩ := List.eq_append_cons_of_mem hclose
      have hcut := cutRow_bracketed literal hrow rest
      rw [List.cons_append] at hcut
      rw [hcut]
      exact .ok rfl
    · rw [cutRow, Text.offset?_eq_none (Text.forall_beq_eq_false hclose)]
      exact .malformed _
  · rw [cutRow]
    · exact .malformed _
    · exact fun body hbody => h ⟨body, hbody⟩

/-- Behind a row, there are blanks up to the end or up to a comma. -/
theorem afterComma_outcome (cs : List Char) :
    Outcome literal (fun rest? => (rest? = none → ∀ c ∈ cs, isBlank c = true) ∧ ∀ rest ∈ rest?, ∃ gap gap',
      (∀ c ∈ gap, isBlank c = true) ∧ (∀ c ∈ gap', isBlank c = true) ∧ cs = gap ++ ',' :: (gap' ++ rest))
      False (afterComma literal cs) := by
  obtain ⟨gap, hgap, hcs, -⟩ := Text.exists_gap cs
  unfold afterComma
  split
  · rename_i hend
    rw [hend, List.append_nil] at hcs
    refine .ok ⟨fun _ => ?_, by simp⟩
    rw [hcs]
    exact hgap
  · rename_i rest hcomma
    refine .ok ⟨by simp, ?_⟩
    rintro _ ⟨⟩
    obtain ⟨gap', hgap', hrest, -⟩ := Text.exists_gap rest
    refine ⟨gap, gap', hgap, hgap', ?_⟩
    rw [← hrest, ← hcomma]
    exact hcs
  · exact .malformed _

/-- Rows follow one another with commas between them. -/
theorem readRows_outcome (width? : Option Nat) (cs : List Char) :
    Outcome literal (fun rows => Listed RowForm (exactRows rows) cs) (HasLargeEntry cs)
      (readRows literal width? cs) := by
  have hcut {cs row after : List Char} (h : cutRow literal cs = .ok (row, after)) :
      cs = '[' :: row ++ ']' :: after := (h ▸ cutRow_outcome literal cs).wellFormed
  have hform {row : List Char} {entries : IntVector} (h : readRow literal row = .ok entries) :
      RowForm (entries.map Int64.toInt) ('[' :: row ++ [']']) := by
    obtain ⟨hlisted, hmany⟩ := (h ▸ readRow_outcome literal (.refl row)).wellFormed
    exact .brackets hlisted (by rwa [List.length_map])
  fun_induction readRows literal width? cs with
  | case1 width? cs cause hrow => exact (hrow ▸ cutRow_outcome literal cs).error False.elim
  | case2 width? cs row after hrow cause hentries =>
    refine (hentries ▸ readRow_outcome literal (.refl row)).error fun hlarge => ?_
    have hwhole := hlarge.surround [] after
    rw [hcut hrow]
    simpa using hwhole
  | case3 => exact .malformed _
  | case4 width? cs row after hrow entries hentries hwidth cause hafter =>
    exact (hafter ▸ afterComma_outcome literal after).error False.elim
  | case5 width? cs row after hrow entries hentries hwidth hafter =>
    have hblank := (hafter ▸ afterComma_outcome literal after).wellFormed.1 rfl
    have hpart : Padded ('[' :: row ++ [']']) ('[' :: row ++ [']'] ++ after) := (Padded.refl _).append_gap hblank
    rw [List.append_assoc] at hpart
    rw [hcut hrow]
    exact .ok (.last (hform hentries) hpart)
  | case6 width? cs row after hrow entries hentries hwidth rest hafter _ cause hrest ih =>
    obtain ⟨gap, gap', hgap, hgap', hcs⟩ := (hafter ▸ afterComma_outcome literal after).wellFormed.2 rest rfl
    refine (hrest ▸ ih).error fun hlarge => ?_
    have hwhole := hlarge.surround ('[' :: row ++ ']' :: gap ++ ',' :: gap') []
    rw [hcut hrow, hcs]
    simpa using hwhole
  | case7 width? cs row after hrow entries hentries hwidth rest hafter _ rows hrest ih =>
    obtain ⟨gap, gap', hgap, hgap', hcs⟩ := (hafter ▸ afterComma_outcome literal after).wellFormed.2 rest rfl
    have hpart : Padded ('[' :: row ++ [']']) ('[' :: row ++ [']'] ++ gap) := (Padded.refl _).append_gap hgap
    have hlisted := Listed.cons (hform hentries) hpart ((hrest ▸ ih).wellFormed.gap_append hgap')
    rw [hcut hrow, hcs]
    refine .ok ?_
    simpa [exactRows] using hlisted

/-- An array that is read follows the grammar. -/
theorem readArray_outcome :
    Outcome literal (fun v => ∃ rows : IntMatrix, ArrayForm (exactRows rows) literal ∧ v = arrayValue rows)
      (HasLargeEntry literal) (readArray literal) := by
  cases hbrackets : between? '[' ']' (trim literal) with
  | none =>
    rw [readArray, hbrackets]
    exact .malformed _
  | some inside =>
    have htrim : trim literal = '[' :: inside ++ [']'] := Text.eq_of_between? hbrackets
    have hliteral : Padded ('[' :: inside ++ [']']) literal := htrim ▸ Text.padded_trim literal
    have hinside : Padded (trim inside) inside := Text.padded_trim inside
    have hlarge (h : HasLargeEntry ('[' :: inside ++ [']'])) : HasLargeEntry literal := by
      obtain ⟨before, after, -, -, rfl⟩ := hliteral
      exact h.surround before after
    rw [readArray_of_brackets htrim]
    by_cases hhead : (trim inside).head? = some '['
    · rw [if_pos hhead]
      refine (readRows_outcome literal none (trim inside)).map (fun h => ?_) fun rows hrows hlisted => ?_
      · refine hlarge ?_
        obtain ⟨before, after, -, -, hparts⟩ := hinside
        have hwhole := h.surround ('[' :: before) (after ++ [']'])
        rw [hparts]
        simpa using hwhole
      · obtain ⟨-, width, -, ⟨-, hwidth⟩, -⟩ := readRows_yields literal none (trim inside) rows hrows
        refine ⟨rows, .matrix (hlisted.of_padded hinside) ?_ hliteral, rfl⟩
        have hsame : ∀ row ∈ exactRows rows, row.length = width := by
          intro row hrow
          obtain ⟨entries, hentries, rfl⟩ := List.mem_map.mp hrow
          rw [List.length_map, hwidth entries hentries]
        intro row hrow row' hrow'
        rw [hsame row hrow, hsame row' hrow']
    · rw [if_neg hhead]
      refine (readRow_outcome literal hinside).map hlarge fun entries _ hentries => ?_
      obtain ⟨hlisted, hmany⟩ := hentries
      refine ⟨[entries], .vector (.brackets (hlisted.of_padded hinside) ?_) hliteral, rfl⟩
      rwa [List.length_map]

end

/-- Reading on a line accepts exactly the texts that follow the grammar with all numbers in range. A text that follows
it otherwise is too large. A text that does not follow it is malformed, if no entry is a number out of range. -/
theorem readArray_follows_grammar (literal : String) (line : Nat) (s : Stack) :
    let result := LocatedStep.lift (readArrayAt line literal.toList) s
    (∀ v, result = .ok v s ↔ ∃ rows : IntMatrix, ArrayForm (exactRows rows) literal.toList ∧ v = arrayValue rows) ∧
      (∀ rows, ArrayForm rows literal.toList → (∃ row ∈ rows, ∃ n ∈ row, ¬ Fits n) →
        result = .error ⟨line, .literalTooLarge⟩ s) ∧
      ((¬ ∃ rows, ArrayForm rows literal.toList) →
        (∀ part n, HasEntry literal.toList part → NumberForm n part → Fits n) →
        ∃ malformation, result = .error ⟨line, .malformedLiteral literal malformation⟩ s) := by
  intro result
  have hresult : result = LocatedStep.lift (stamp line (readArray literal.toList)) s := by
    rw [← readArrayAt_eq]
  have hok {v : Value} (h : readArray literal.toList = .ok v) : result = .ok v s :=
    hresult.trans (LocatedStep.lift_stamp_eq_ok_iff.mpr h)
  have herror {cause : Cause} (h : readArray literal.toList = .error cause) : result = .error ⟨line, cause⟩ s :=
    hresult.trans (LocatedStep.lift_stamp_eq_error_iff.mpr h)
  have houtcome := readArray_outcome literal.toList
  refine ⟨fun v => ⟨fun h => ?_, ?_⟩, fun rows hform hlarge => herror ?_, fun hno hfits => ?_⟩
  · cases hread : readArray literal.toList with
    | ok v' =>
      rw [hok hread] at h
      cases h
      exact (hread ▸ houtcome).wellFormed
    | error cause =>
      rw [herror hread] at h
      cases h
  · rintro ⟨rows, hform, rfl⟩
    refine hok ?_
    rw [readArray_of_form hform, narrowRows_exactRows]
    rfl
  · rw [readArray_of_form hform, narrowRows_of_not_fits hlarge]
    rfl
  · generalize hread : readArray literal.toList = x at houtcome
    cases houtcome with
    | ok h =>
      obtain ⟨rows, hform, -⟩ := h
      exact absurd ⟨_, hform⟩ hno
    | malformed malformation =>
      refine ⟨malformation, ?_⟩
      rw [malformed, String.ofList_toList] at hread
      exact herror hread
    | tooLarge h =>
      obtain ⟨part, n, hentry, hnumber, hlarge⟩ := h
      exact absurd (hfits part n hentry hnumber) hlarge

/-- A matrix of one row is a vector, the number behind the largest integer is too large, and letters are malformed. -/
theorem readArray_follows_grammar_each :
    let s := Stack.ofList 1 []
    let read literal := LocatedStep.lift (readArrayAt 7 (String.toList literal)) s
    read "[ [1,-2]\t]" = .ok (.vector [1, -2]) s ∧
      read "[1,9223372036854775808]" = .error ⟨7, .literalTooLarge⟩ s ∧
      ∃ malformation, read "[a,b]" = .error ⟨7, .malformedLiteral "[a,b]" malformation⟩ s := by
  intro s read
  have hone : NumberForm 1 ['1'] := @NumberForm.unsigned ['1'] rfl
  have hmatrix : ArrayForm (exactRows [[1, -2]]) "[ [1,-2]\t]".toList := by
    have hrow : RowForm [1, -2] ['[', '1', ',', '-', '2', ']'] :=
      .brackets (.cons hone (.refl ['1']) (.last (.negative rfl) (.refl ['-', '2']))) (by decide)
    have hpart : Padded ['[', '1', ',', '-', '2', ']'] [' ', '[', '1', ',', '-', '2', ']', '\t'] :=
      ⟨[' '], ['\t'], List.forall_mem_singleton.mpr rfl, List.forall_mem_singleton.mpr rfl, rfl⟩
    exact .matrix (.last hrow hpart) (by simp [exactRows]) (.refl _)
  have hlarge : ArrayForm [[1, 9223372036854775808]] "[1,9223372036854775808]".toList := by
    have hvalue : (Text.numeralValue "9223372036854775808".toList : Int) = 9223372036854775808 := by decide
    have hnumber : NumberForm 9223372036854775808 "9223372036854775808".toList := by
      rw [← hvalue]
      exact .unsigned (by decide)
    exact .vector (.brackets (.cons hone (.refl ['1']) (.last hnumber (.refl _))) (by decide)) (.refl _)
  have hletters : ¬ ∃ rows, ArrayForm rows "[a,b]".toList := by
    rintro ⟨rows, hform⟩
    have hread : readArray "[a,b]".toList = malformed "[a,b]".toList (.notAnInteger "a") := rfl
    rw [readArray_of_form hform] at hread
    rcases narrowRows_cases rows with ⟨rows', -, hrows⟩ | hrows
    all_goals
      rw [hrows] at hread
      cases hread
  refine ⟨?_, ?_, ?_⟩
  · exact ((readArray_follows_grammar _ 7 s).1 _).mpr ⟨_, hmatrix, rfl⟩
  · exact (readArray_follows_grammar _ 7 s).2.1 _ hlarge ⟨_, .head _, _, .tail _ (.head _), by decide⟩
  · refine (readArray_follows_grammar _ 7 s).2.2 hletters ?_
    rintro part n ⟨before, opening, cell, closing, after, -, -, ⟨gap, gap', -, -, rfl⟩, hcs⟩ hnumber
    obtain ⟨c, cs, rfl⟩ := List.exists_cons_of_ne_nil hnumber.trimmed.ne_nil
    have hmem : c ∈ "[a,b]".toList := by simp [hcs]
    have hother : ∀ c ∈ "[a,b]".toList, c ≠ '-' ∧ c.isDigit = false := by simp
    obtain ⟨hminus, hdigit⟩ := hother c hmem
    exact absurd List.mem_cons_self (hnumber.not_mem hminus hdigit)

end Literal

end StackLang
