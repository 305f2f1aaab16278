import StackLang.Text

/-!
# Cutting texts that were put together

What the cutting functions give for texts that are made of known parts: pieces between separators, a part
between two delimiters, a part between blanks, and lines. Each statement is about any rest that follows.
-/

namespace StackLang.Text

/-! ## Separators -/

/-- Texts are split as lists are. -/
theorem splitOn_eq {α : Type} [BEq α] (separator : α) (cs : List α) : splitOn separator cs = cs.splitOn separator := by
  induction cs with
  | nil => rfl
  | cons c cs ih =>
    rw [splitOn, ih, List.splitOn_cons_eq_if_modifyHead]
    by_cases h : (c == separator) = true
    · rw [if_pos h, if_pos h]
    · rw [if_neg h, if_neg h]
      cases hpieces : cs.splitOn separator with
      | nil => exact absurd hpieces (List.splitOn_ne_nil separator cs)
      | cons piece pieces => rfl

/-- Pieces without the separator can be joined by it and split again. -/
theorem splitOn_intercalate {α : Type} [BEq α] [LawfulBEq α] {separator : α} {pieces : List (List α)}
    (hpieces : ∀ piece ∈ pieces, separator ∉ piece) (hne : pieces ≠ []) :
    splitOn separator ([separator].intercalate pieces) = pieces := by
  rw [splitOn_eq]
  exact List.splitOn_intercalate separator hpieces hne

/-- The pieces between separators hold no separator. -/
theorem not_mem_of_mem_splitOn {α : Type} [BEq α] [LawfulBEq α] {separator : α} {cs piece : List α}
    (h : piece ∈ splitOn separator cs) : separator ∉ piece := by
  induction cs generalizing piece with
  | nil => simp_all [splitOn]
  | cons c cs ih =>
    rw [splitOn] at h
    by_cases hc : (c == separator) = true
    · rw [if_pos hc, List.mem_cons] at h
      rcases h with rfl | h
      · exact List.not_mem_nil
      · exact ih h
    · rw [if_neg hc] at h
      have hne : separator ≠ c := fun heq => hc (beq_iff_eq.mpr heq.symm)
      cases hpieces : splitOn separator cs with
      | nil => simp_all
      | cons first pieces =>
        rw [hpieces] at h ih
        rcases List.mem_cons.mp h with rfl | h
        · exact List.not_mem_cons_of_ne_of_not_mem hne (ih List.mem_cons_self)
        · exact ih (List.mem_cons_of_mem first h)

/-- A longer separator is its first character and a part of the pieces that follow. -/
theorem intercalate_cons_separator (c : Char) (separator piece : List Char) (pieces : List (List Char)) :
    (c :: separator).intercalate (piece :: pieces) =
      [c].intercalate (piece :: pieces.map (separator ++ ·)) := by
  induction pieces generalizing piece with
  | nil => rfl
  | cons piece' pieces ih =>
    rw [List.intercalate_cons_cons, ih, List.map_cons, List.intercalate_cons_cons]
    cases pieces <;> simp

/-- Joined pieces are one of them, with the pieces before it and a separator behind each, and with the pieces after it
and a separator before each. -/
theorem intercalate_append_cons {α : Type} (separator : α) (before : List (List α)) (piece : List α)
    (after : List (List α)) :
    [separator].intercalate (before ++ piece :: after) =
      before.flatMap (· ++ [separator]) ++ piece ++ after.flatMap (separator :: ·) := by
  induction before with
  | nil =>
    induction after generalizing piece with
    | nil => simp
    | cons next after ih =>
      have hrest := ih next
      simp only [List.nil_append, List.flatMap_nil] at hrest
      simp [List.intercalate_cons_cons, hrest]
  | cons first before ih =>
    rw [List.cons_append, List.intercalate_cons_of_ne_nil (by simp), ih]
    simp

/-- A character that is in joined pieces is in the separator or in one of the pieces. -/
theorem mem_intercalate {separator : List Char} {pieces : List (List Char)} {c : Char}
    (h : c ∈ separator.intercalate pieces) : c ∈ separator ∨ ∃ piece ∈ pieces, c ∈ piece := by
  induction pieces with
  | nil => cases h
  | cons piece pieces ih =>
    cases pieces with
    | nil => exact .inr ⟨piece, List.mem_cons_self, by rwa [List.intercalate_singleton] at h⟩
    | cons piece' pieces =>
      rw [List.intercalate_cons_cons, List.mem_append, List.mem_append] at h
      rcases h with (hpiece | hseparator) | hrest
      · exact .inr ⟨piece, List.mem_cons_self, hpiece⟩
      · exact .inl hseparator
      · exact (ih hrest).imp_right fun ⟨p, hp, hc⟩ => ⟨p, List.mem_cons_of_mem piece hp, hc⟩

/-! ## Delimiters -/

/-- A character is found behind a part that does not hold it. -/
theorem position?_append {c : Char} {cs : List Char} (h : c ∉ cs) (rest : List Char) :
    position? c (cs ++ c :: rest) = some cs.length := by
  induction cs with
  | nil => simp [position?, List.findIdx?_cons]
  | cons d cs ih =>
    have hne : (d == c) = false := by
      rw [beq_eq_false_iff_ne]
      rintro rfl
      exact h List.mem_cons_self
    have hrest := ih fun hc => h (List.mem_cons_of_mem d hc)
    simp only [position?, List.cons_append, List.findIdx?_cons, hne] at hrest ⊢
    simp [hrest]

/-- A character that is found stands behind a part that does not hold it. -/
theorem exists_append_of_position? {c : Char} {cs : List Char} {position : Nat} (h : position? c cs = some position) :
    ∃ front rest, c ∉ front ∧ cs = front ++ c :: rest ∧ position = front.length := by
  obtain ⟨hfound, hc, hfront⟩ := List.findIdx?_eq_some_iff_getElem.mp h
  refine ⟨cs.take position, cs.drop (position + 1), ?_, ?_, by simp [Nat.le_of_lt hfound]⟩
  · intro hmem
    obtain ⟨i, hi, rfl⟩ := List.mem_take_iff_getElem.mp hmem
    exact hfront i (by omega) (beq_self_eq_true _)
  · rw [← beq_iff_eq.mp hc, List.getElem_cons_drop, List.take_append_drop]

/-- What stands between two delimiters. -/
theorem between?_delimited (opening closing : Char) (cs : List Char) :
    between? opening closing (opening :: cs ++ [closing]) = some cs := by
  simp [between?, dropLast?]

/-- A text with something between two delimiters consists of these three parts. -/
theorem eq_of_between? {opening closing : Char} {cs inner : List Char} (h : between? opening closing cs = some inner) :
    cs = opening :: inner ++ [closing] := by
  cases cs with
  | nil => cases h
  | cons c cs =>
    rw [between?] at h
    split at h
    · rename_i hopening
      rw [dropLast?] at h
      split at h
      · rename_i hclosing
        cases h
        obtain ⟨front, rfl⟩ := List.getLast?_eq_some_iff.mp (beq_iff_eq.mp hclosing)
        rw [beq_iff_eq.mp hopening, List.dropLast_concat, List.cons_append]
      · cases h
    · cases h

/-! ## Byte offsets -/

section

variable {p : Char → Bool} {n : Nat} {cs : List Char}

/-- A character with a property is found behind a part without such characters. -/
theorem offset?_append {front : List Char} {c : Char} (hfront : ∀ d ∈ front, p d = false) (hc : p c = true)
    (rest : List Char) : offset? p (front ++ c :: rest) = some (byteLength front) := by
  induction front with
  | nil => simp [offset?, hc]
  | cons d front ih =>
    have hrest := ih fun d' hd' => hfront d' (List.mem_cons_of_mem d hd')
    simp [offset?, hfront d List.mem_cons_self, hrest]

/-- In a text without characters with a property none is found. -/
theorem offset?_eq_none (h : ∀ c ∈ cs, p c = false) : offset? p cs = none := by
  induction cs with
  | nil => rfl
  | cons c cs ih =>
    have hrest := ih fun c' hc' => h c' (List.mem_cons_of_mem c hc')
    simp [offset?, h c List.mem_cons_self, hrest]

/-- A character with a property that is found stands behind a part without such characters. -/
theorem exists_append_of_offset? (h : offset? p cs = some n) :
    ∃ front c rest, (∀ d ∈ front, p d = false) ∧ p c = true ∧ cs = front ++ c :: rest ∧ n = byteLength front := by
  induction cs generalizing n with
  | nil => cases h
  | cons c cs ih =>
    rw [offset?] at h
    split at h
    · cases h
      exact ⟨[], c, cs, nofun, ‹_›, rfl, rfl⟩
    · rename_i hc
      obtain ⟨n', hn', rfl⟩ := Option.map_eq_some_iff.mp h
      obtain ⟨front, d, rest, hfront, hd, rfl, rfl⟩ := ih hn'
      refine ⟨c :: front, d, rest, ?_, hd, rfl, (byteLength_cons c front).symm⟩
      exact List.forall_mem_cons.mpr ⟨Bool.eq_false_iff.mpr hc, hfront⟩

/-- The characters of a part that does not hold a character are different from it. -/
theorem forall_beq_eq_false {c : Char} (h : c ∉ cs) : ∀ d ∈ cs, (d == c) = false := by
  intro d hd
  rw [beq_eq_false_iff_ne]
  rintro rfl
  exact h hd

/-- A text is cut where its first part ends. -/
theorem cutAt_append (front rest : List Char) : cutAt (byteLength front) (front ++ rest) = .ok (front, rest) := by
  induction front with
  | nil => cases rest <;> rfl
  | cons c front ih =>
    have hpos := c.utf8Size_pos
    obtain ⟨n, hn⟩ : ∃ n, byteLength (c :: front) = n + 1 := ⟨byteLength (c :: front) - 1, by simp; omega⟩
    have hless : n + 1 - c.utf8Size = byteLength front := by
      rw [← hn, byteLength_cons]
      omega
    rw [hn, List.cons_append, cutAt, if_neg (by rw [← hn, byteLength_cons]; omega), hless, ih]
    rfl

/-- A text has one first part with a number of bytes. -/
theorem append_inj_of_byteLength {front rest front' rest' : List Char} (h : front ++ rest = front' ++ rest')
    (hlength : byteLength front = byteLength front') : front = front' ∧ rest = rest' := by
  have hcut := cutAt_append front rest
  rw [h, hlength, cutAt_append] at hcut
  cases hcut
  exact ⟨rfl, rfl⟩

/-- Whether a byte offset lies at an end of a text or between two of its characters. -/
def OnBoundary (n : Nat) (cs : List Char) : Prop := ∃ front rest, cs = front ++ rest ∧ n = byteLength front

/-- A text can be cut exactly on its boundaries. -/
theorem exists_cutAt_iff : (∃ parts, cutAt n cs = .ok parts) ↔ OnBoundary n cs := by
  constructor
  · rintro ⟨⟨front, rest⟩, hcut⟩
    exact ⟨front, rest, of_cutAt hcut⟩
  · rintro ⟨front, rest, rfl, rfl⟩
    exact ⟨(front, rest), cutAt_append front rest⟩

/-- A boundary of a rest is one of the whole text, behind a first character. -/
theorem OnBoundary.cons (h : OnBoundary n cs) (c : Char) : OnBoundary (c.utf8Size + n) (c :: cs) := by
  obtain ⟨front, rest, rfl, rfl⟩ := h
  exact ⟨c :: front, rest, rfl, (byteLength_cons c front).symm⟩

/-- Before a character of one byte that is found and behind it there are boundaries. -/
theorem onBoundary_of_offset? {closing : Char} (hsize : closing.utf8Size = 1)
    (h : offset? (· == closing) cs = some n) : OnBoundary n cs ∧ OnBoundary (n + 1) cs := by
  obtain ⟨front, c, rest, -, hc, rfl, rfl⟩ := exists_append_of_offset? h
  rw [beq_iff_eq] at hc
  subst hc
  exact ⟨⟨front, c :: rest, rfl, rfl⟩, front ++ [c], rest, by simp, by simp [hsize]⟩

end

/-! ## Blanks -/

/-- A text that starts with a character that is not blank has no blanks to remove there. -/
theorem trimStart_cons {c : Char} (h : isBlank c = false) (cs : List Char) : trimStart (c :: cs) = c :: cs := by
  simp [trimStart, h]

/-- Blanks in front are removed. -/
theorem trimStart_blank_cons {c : Char} (h : isBlank c = true) (cs : List Char) :
    trimStart (c :: cs) = trimStart cs := by
  simp [trimStart, h]

/-- A gap in front is removed. -/
theorem trimStart_gap_append {gap : List Char} (h : ∀ c ∈ gap, isBlank c = true) (cs : List Char) :
    trimStart (gap ++ cs) = trimStart cs :=
  List.dropWhile_append_of_pos h

/-- A text is a gap of blanks and what remains without them, which does not start with one. -/
theorem exists_gap (cs : List Char) :
    ∃ gap, (∀ c ∈ gap, isBlank c = true) ∧ cs = gap ++ trimStart cs ∧
      ∀ first rest, trimStart cs = first :: rest → isBlank first = false := by
  refine ⟨cs.takeWhile isBlank, List.all_eq_true.mp List.all_takeWhile, ?_, ?_⟩
  · exact List.takeWhile_append_dropWhile.symm
  · intro first rest htrim
    exact isBlank_of_trimStart htrim

/-- A blank in front makes no difference to a text that is trimmed. -/
theorem trim_blank_cons {c : Char} (h : isBlank c = true) (cs : List Char) : trim (c :: cs) = trim cs := by
  rw [trim, trimStart_blank_cons h, trim]

/-- Whether a text is not empty and has a blank at neither end. -/
structure Trimmed (cs : List Char) : Prop where
  ne_nil : cs ≠ []
  start : trimStart cs = cs
  finish : trimEnd cs = cs

/-- A trimmed text stays as it is. -/
theorem Trimmed.trim_eq {cs : List Char} (h : Trimmed cs) : trim cs = cs := by
  rw [trim, h.start, h.finish]

/-- Only the first of several parts matters for the start of a text. -/
theorem Trimmed.trimStart_append {cs : List Char} (h : Trimmed cs) (rest : List Char) :
    trimStart (cs ++ rest) = cs ++ rest := by
  obtain ⟨hne, hstart, _⟩ := h
  cases cs with
  | nil => exact absurd rfl hne
  | cons c cs =>
    cases hc : isBlank c with
    | false => rw [List.cons_append, trimStart_cons hc]
    | true =>
      have hlength := length_trimStart_le cs
      rw [trimStart_blank_cons hc] at hstart
      rw [hstart, List.length_cons] at hlength
      omega

/-- The end of a text is the start of the text read backwards. -/
theorem trimEnd_eq (cs : List Char) : trimEnd cs = (trimStart cs.reverse).reverse := rfl

/-- A character that is not blank is not in a gap of blanks. -/
theorem not_mem_gap {gap : List Char} (hgap : ∀ c ∈ gap, isBlank c = true) {c : Char} (hc : isBlank c = false) :
    c ∉ gap := by
  intro hmem
  rw [hgap c hmem] at hc
  cases hc

/-- A text is what remains without the blanks at its end, and a gap of blanks. -/
theorem exists_gap_at_end (cs : List Char) :
    ∃ gap, (∀ c ∈ gap, isBlank c = true) ∧ cs = trimEnd cs ++ gap := by
  obtain ⟨gap, hgap, hcs, -⟩ := exists_gap cs.reverse
  refine ⟨gap.reverse, fun c hc => hgap c (List.mem_reverse.mp hc), ?_⟩
  rw [trimEnd_eq, ← List.reverse_append, ← hcs, List.reverse_reverse]

/-- A text is trimmed if it is so backwards. -/
theorem Trimmed.reverse {cs : List Char} (h : Trimmed cs) : Trimmed cs.reverse where
  ne_nil := by simpa using h.ne_nil
  start := by
    have hfinish := h.finish
    rw [trimEnd_eq] at hfinish
    rw [← List.reverse_inj, hfinish, List.reverse_reverse]
  finish := by rw [trimEnd_eq, List.reverse_reverse, h.start]

/-- Only the last of several parts matters for the end of a text. -/
theorem Trimmed.trimEnd_append {cs : List Char} (h : Trimmed cs) (front : List Char) :
    trimEnd (front ++ cs) = front ++ cs := by
  rw [trimEnd_eq, List.reverse_append, h.reverse.trimStart_append, ← List.reverse_append, List.reverse_reverse]

/-- A gap at the end is removed. -/
theorem trimEnd_append_gap {gap : List Char} (h : ∀ c ∈ gap, isBlank c = true) (cs : List Char) :
    trimEnd (cs ++ gap) = trimEnd cs := by
  have hreverse : ∀ c ∈ gap.reverse, isBlank c = true := fun c hc => h c (List.mem_reverse.mp hc)
  rw [trimEnd_eq, List.reverse_append, trimStart_gap_append hreverse, ← trimEnd_eq]

/-- Only what is before the first character that is not blank can be removed at the start. -/
theorem trimStart_append_cons {c : Char} (h : isBlank c = false) (front rest : List Char) :
    trimStart (front ++ c :: rest) = trimStart front ++ c :: rest := by
  induction front with
  | nil => exact trimStart_cons h rest
  | cons d front ih =>
    cases hd : isBlank d with
    | true => rw [List.cons_append, trimStart_blank_cons hd, trimStart_blank_cons hd, ih]
    | false => rw [List.cons_append, trimStart_cons hd, trimStart_cons hd, List.cons_append]

/-- Only what is behind the last character that is not blank can be removed at the end. -/
theorem trimEnd_append_cons {c : Char} (h : isBlank c = false) (front rest : List Char) :
    trimEnd (front ++ c :: rest) = front ++ c :: trimEnd rest := by
  rw [trimEnd_eq, List.reverse_append, List.reverse_cons, List.append_assoc, List.singleton_append,
    trimStart_append_cons h, List.reverse_append, ← trimEnd_eq]
  simp

/-- A text without the blanks at its ends has none at its start. -/
theorem trimStart_trim (cs : List Char) : trimStart (trim cs) = trim cs := by
  obtain ⟨-, -, -, hfirst⟩ := exists_gap cs
  rw [trim]
  cases hcs : trimStart cs with
  | nil => rfl
  | cons first rest =>
    have hblank : isBlank first = false := hfirst first rest hcs
    have hend : trimEnd (first :: rest) = first :: trimEnd rest := trimEnd_append_cons hblank [] rest
    rw [hend, trimStart_cons hblank]

/-- A single character that is not blank is trimmed. -/
theorem trimmed_singleton {c : Char} (h : isBlank c = false) : Trimmed [c] where
  ne_nil := List.cons_ne_nil c []
  start := trimStart_cons h []
  finish := by rw [trimEnd_eq, List.reverse_singleton, trimStart_cons h, List.reverse_singleton]

/-- A text between two trimmed parts is trimmed. -/
theorem Trimmed.surround {front last : List Char} (hfront : Trimmed front) (hlast : Trimmed last)
    (middle : List Char) : Trimmed (front ++ middle ++ last) where
  ne_nil h := hfront.ne_nil (List.append_eq_nil_iff.mp (List.append_eq_nil_iff.mp h).1).1
  start := by rw [List.append_assoc, hfront.trimStart_append]
  finish := hlast.trimEnd_append _

/-- A text without blanks is trimmed. -/
theorem trimmed_of_forall {cs : List Char} (hne : cs ≠ []) (h : ∀ c ∈ cs, isBlank c = false) : Trimmed cs := by
  have hstart {cs : List Char} (h : ∀ c ∈ cs, isBlank c = false) : trimStart cs = cs := by
    cases cs with
    | nil => rfl
    | cons c cs => exact trimStart_cons (h c List.mem_cons_self) cs
  refine ⟨hne, hstart h, ?_⟩
  rw [trimEnd_eq, hstart fun c hc => h c (List.mem_reverse.mp hc), List.reverse_reverse]

/-- Trimmed parts joined by a separator are trimmed. -/
theorem trimmed_intercalate (separator : List Char) {parts : List (List Char)} (hne : parts ≠ [])
    (h : ∀ part ∈ parts, Trimmed part) : Trimmed (separator.intercalate parts) := by
  induction parts with
  | nil => exact absurd rfl hne
  | cons part parts ih =>
    have hpart := h part List.mem_cons_self
    cases parts with
    | nil =>
      rw [List.intercalate_singleton]
      exact hpart
    | cons part' parts =>
      rw [List.intercalate_cons_cons]
      have hrest := ih (List.cons_ne_nil part' parts) fun p hp => h p (List.mem_cons_of_mem part hp)
      exact hpart.surround hrest separator

/-- Digits are not blank. -/
theorem isBlank_of_isDigit {c : Char} (h : c.isDigit = true) : isBlank c = false := by
  simp only [Char.isDigit, Bool.and_eq_true, decide_eq_true_eq, ge_iff_le, UInt32.le_iff_toNat_le] at h
  obtain ⟨hlow, hhigh⟩ := h
  change 48 ≤ c.toNat at hlow
  change c.toNat ≤ 57 at hhigh
  simp only [isBlank, inRanges, blankRanges, List.any_cons, List.any_nil, Bool.or_eq_false_iff,
    Bool.and_eq_false_iff, decide_eq_false_iff_not, and_true]
  omega

/-! ## Blanks around a part -/

/-- Whether a text is a part with blanks around it. -/
def Padded (part cs : List Char) : Prop :=
  ∃ before after, (∀ c ∈ before, isBlank c = true) ∧ (∀ c ∈ after, isBlank c = true) ∧ cs = before ++ part ++ after

namespace Padded

variable {part cs gap : List Char}

/-- There may be no blanks. -/
theorem refl (part : List Char) : Padded part part :=
  ⟨[], [], by simp, by simp, by simp⟩

/-- There may be more blanks in front. -/
theorem gap_append (h : Padded part cs) (hgap : ∀ c ∈ gap, isBlank c = true) : Padded part (gap ++ cs) := by
  obtain ⟨before, after, hbefore, hafter, rfl⟩ := h
  refine ⟨gap ++ before, after, fun c hc => ?_, hafter, by simp only [List.append_assoc]⟩
  exact (List.mem_append.mp hc).elim (hgap c) (hbefore c)

/-- There may be more blanks behind. -/
theorem append_gap (h : Padded part cs) (hgap : ∀ c ∈ gap, isBlank c = true) : Padded part (cs ++ gap) := by
  obtain ⟨before, after, hbefore, hafter, rfl⟩ := h
  refine ⟨before, after ++ gap, hbefore, fun c hc => ?_, by simp only [List.append_assoc]⟩
  exact (List.mem_append.mp hc).elim (hafter c) (hgap c)

/-- Blanks in front of a trimmed part may be removed. -/
theorem trimStart (h : Padded part cs) (hpart : Trimmed part) : Padded part (trimStart cs) := by
  obtain ⟨before, after, hbefore, hafter, rfl⟩ := h
  rw [List.append_assoc, trimStart_gap_append hbefore, hpart.trimStart_append]
  exact (refl part).append_gap hafter

/-- Without the blanks in front, a text starts with the trimmed part, whatever follows the blanks behind the part. -/
theorem exists_trimStart (h : Padded part cs) (hpart : Trimmed part) :
    ∃ gap, (∀ c ∈ gap, isBlank c = true) ∧ ∀ rest, Text.trimStart (cs ++ rest) = part ++ (gap ++ rest) := by
  obtain ⟨before, after, hbefore, hafter, rfl⟩ := h
  refine ⟨after, hafter, fun rest => ?_⟩
  rw [List.append_assoc, List.append_assoc, trimStart_gap_append hbefore, hpart.trimStart_append]

/-- Blanks behind a trimmed part may be removed. -/
theorem trimEnd (h : Padded part cs) (hpart : Trimmed part) : Padded part (trimEnd cs) := by
  obtain ⟨before, after, hbefore, hafter, rfl⟩ := h
  rw [trimEnd_append_gap hafter, hpart.trimEnd_append]
  exact (refl part).gap_append hbefore

/-- A part that is trimmed is what remains without the blanks. -/
theorem trim_eq (h : Padded part cs) (hpart : Trimmed part) : trim cs = part := by
  obtain ⟨before, after, hbefore, hafter, rfl⟩ := h
  rw [trim, List.append_assoc, trimStart_gap_append hbefore, hpart.trimStart_append, trimEnd_append_gap hafter,
    hpart.finish]

/-- A character that is not blank is in the part. -/
theorem not_mem (h : Padded part cs) {c : Char} (hc : isBlank c = false) (hpart : c ∉ part) : c ∉ cs := by
  obtain ⟨before, after, hbefore, hafter, rfl⟩ := h
  simp only [List.mem_append, not_or]
  exact ⟨⟨not_mem_gap hbefore hc, hpart⟩, not_mem_gap hafter hc⟩

end Padded

/-- A text is what remains of it without the blanks at its ends, and these blanks. -/
theorem padded_trim (cs : List Char) : Padded (trim cs) cs := by
  obtain ⟨gap, hgap, hcs, -⟩ := exists_gap cs
  obtain ⟨gap', hgap', htrim⟩ := exists_gap_at_end (trimStart cs)
  refine ⟨gap, gap', hgap, hgap', ?_⟩
  rw [trim, List.append_assoc, ← htrim, ← hcs]

/-! ## Lines -/

/-- A line that does not end in a carriage return is kept as it is. -/
theorem dropReturn_of_getLast? {cs : List Char} (h : cs.getLast? ≠ some '\r') : dropReturn cs = cs := by
  have hbeq : (cs.getLast? == some '\r') = false := by simpa using h
  simp [dropReturn, dropLast?, hbeq]

/-- A line end is one line feed, with or without a carriage return before it. -/
theorem exists_lineEnd (piece : List Char) :
    ∃ gap, (∀ c ∈ gap, isBlank c = true) ∧ piece ++ ['\n'] = dropReturn piece ++ gap ∧ gap.count '\n' = 1 := by
  by_cases h : piece.getLast? = some '\r'
  · refine ⟨['\r', '\n'], ?_, ?_, rfl⟩
    · simp only [List.forall_mem_cons, List.not_mem_nil, false_implies, implies_true, and_true]
      exact ⟨rfl, rfl⟩
    · obtain ⟨front, rfl⟩ := List.getLast?_eq_some_iff.mp h
      simp [dropReturn, dropLast?]
  · refine ⟨['\n'], ?_, ?_, rfl⟩
    · simp only [List.forall_mem_singleton]
      rfl
    · rw [dropReturn_of_getLast? h]

/-- Lines that hold no line end can be joined by line feeds and read again, if the last one is not empty. -/
theorem lines_intercalate {pieces : List (List Char)}
    (hfeed : ∀ piece ∈ pieces, '\n' ∉ piece) (hreturn : ∀ piece ∈ pieces, piece.getLast? ≠ some '\r')
    (hempty : ∀ piece ∈ pieces, piece ≠ []) : lines (['\n'].intercalate pieces) = pieces := by
  by_cases hne : pieces = []
  · subst hne
    rfl
  · rw [lines, splitOn_intercalate hfeed hne]
    clear hfeed
    induction pieces with
    | nil => rfl
    | cons piece pieces ih =>
      cases pieces with
      | nil => simp [linesOfPieces, hempty piece List.mem_cons_self]
      | cons piece' pieces =>
        rw [linesOfPieces, dropReturn_of_getLast? (hreturn piece List.mem_cons_self)]
        · rw [ih]
          · exact fun p hp => hreturn p (List.mem_cons_of_mem piece hp)
          · exact fun p hp => hempty p (List.mem_cons_of_mem piece hp)
          · exact List.cons_ne_nil _ _
        · intro h
          cases h

/-! ## Bytes -/

/-- The bytes of a text are those of its characters, one behind the other. -/
theorem toList_toUTF8 (s : String) : s.toUTF8.data.toList = s.toList.flatMap String.utf8EncodeChar := by
  rw [String.toUTF8, ← String.utf8Encode_toList, List.utf8Encode, List.toList_data_toByteArray]

/-- A byte of a character is the code of an ASCII character, or it is no ASCII character itself and none of the last
eight bytes. -/
theorem toNat_of_mem_utf8EncodeChar {b : UInt8} {c : Char} (h : b ∈ String.utf8EncodeChar c) :
    c.toNat < 128 ∧ b.toNat = c.toNat ∨ 128 ≤ b.toNat ∧ b.toNat < 248 := by
  have hcode : c.val.toNat = c.toNat := rfl
  unfold String.utf8EncodeChar at h
  simp only [hcode] at h
  split at h
  · left
    simp only [List.mem_singleton] at h
    subst h
    simp only [UInt8.toNat_ofNat']
    omega
  · right
    split at h
    · simp only [List.mem_cons, List.not_mem_nil, or_false] at h
      rcases h with rfl | rfl <;> simp only [UInt8.toNat_ofNat'] <;> omega
    · split at h
      · simp only [List.mem_cons, List.not_mem_nil, or_false] at h
        rcases h with rfl | rfl | rfl <;> simp only [UInt8.toNat_ofNat'] <;> omega
      · simp only [List.mem_cons, List.not_mem_nil, or_false] at h
        rcases h with rfl | rfl | rfl | rfl <;> simp only [UInt8.toNat_ofNat'] <;> omega

end StackLang.Text
