import StackLang.Proofs.IntegerText
import StackLang.Proofs.Shape

/-!
# The text of an array

Vectors and matrices are written as lists in brackets, with a comma and a space between their items. Reading
such a text gives back the vector or matrix, if it has the shape that array literals have to have.
-/

namespace StackLang

namespace Value

/-- The characters of the items of a list, joined as they are between its brackets. -/
def itemChars (items : List String) : List Char := [',', ' '].intercalate (items.map String.toList)

/-- The characters of the text of a list. -/
theorem toList_listText (items : List String) : (listText items).toList = '[' :: itemChars items ++ [']'] := by
  simp [listText, itemChars]

section Items

variable {α : Type} {f : α → String} {as : List α}

/-- The parts that the items of a list are joined from are the texts of its elements. -/
theorem exists_of_mem_itemParts {part : List Char} (h : part ∈ (as.map f).map String.toList) :
    ∃ a ∈ as, (f a).toList = part := by
  rw [List.map_map] at h
  exact List.mem_map.mp h

/-- A character between the brackets of a list separates items or belongs to the text of an element. -/
theorem mem_itemChars {c : Char} (h : c ∈ itemChars (as.map f)) :
    c = ',' ∨ c = ' ' ∨ ∃ a ∈ as, c ∈ (f a).toList := by
  rcases Text.mem_intercalate h with hseparator | ⟨part, hpart, hc⟩
  · simp only [List.mem_cons, List.not_mem_nil, or_false] at hseparator
    exact hseparator.imp_right .inl
  · obtain ⟨a, ha, rfl⟩ := exists_of_mem_itemParts hpart
    exact .inr (.inr ⟨a, ha, hc⟩)

/-- The items of a list are trimmed, if the texts of its elements are. -/
theorem trimmed_itemChars (hne : as ≠ []) (h : ∀ a, Text.Trimmed (f a).toList) :
    Text.Trimmed (itemChars (as.map f)) := by
  refine Text.trimmed_intercalate _ (by simpa using hne) fun part hpart => ?_
  obtain ⟨a, _, rfl⟩ := exists_of_mem_itemParts hpart
  exact h a

end Items

end Value

open Value (itemChars)

namespace Integer

/-- The text of an integer has no blanks. -/
theorem isBlank_of_mem_text {n : Integer} {c : Char} (h : c ∈ n.text.toList) : Text.isBlank c = false := by
  rcases mem_text h with rfl | hdigit
  · decide
  · exact Text.isBlank_of_isDigit hdigit

/-- The text of an integer is trimmed. -/
theorem trimmed_text (n : Integer) : Text.Trimmed n.text.toList := n.isIntegerText_text.trimmed

/-- The text of an integer has no other characters than digits and the minus sign. -/
theorem not_mem_text {c : Char} (hminus : c ≠ '-') (hdigit : c.isDigit = false) (n : Integer) :
    c ∉ n.text.toList := by
  intro h
  rcases mem_text h with heq | hdigit'
  · exact hminus heq
  · rw [hdigit] at hdigit'
    cases hdigit'

/-- The text of an integer starts with none of the characters that it cannot hold. -/
theorem exists_cons_text (n : Integer) :
    ∃ first rest, n.text.toList = first :: rest ∧ ∀ c, c ≠ '-' → c.isDigit = false → first ≠ c := by
  obtain ⟨first, rest, hcs⟩ := List.exists_cons_of_ne_nil n.trimmed_text.ne_nil
  refine ⟨first, rest, hcs, ?_⟩
  rintro c hminus hdigit rfl
  exact not_mem_text hminus hdigit n (by rw [hcs]; exact List.mem_cons_self)

/-- Between the items of a vector there are no other characters than its own and those of integers. -/
theorem not_mem_itemChars {c : Char} (hminus : c ≠ '-') (hdigit : c.isDigit = false) (hcomma : c ≠ ',')
    (hspace : c ≠ ' ') (entries : IntVector) : c ∉ itemChars (entries.map text) := by
  intro h
  rcases Value.mem_itemChars h with rfl | rfl | ⟨n, _, hc⟩
  · exact hcomma rfl
  · exact hspace rfl
  · exact not_mem_text hminus hdigit n hc

end Integer

namespace Literal

/-! ## Rows -/

/-- A list is computed element by element. -/
theorem mapM_map_ok {α β : Type} {f : β → Except Cause α} {g : α → β} {as : List α}
    (h : ∀ a ∈ as, f (g a) = .ok a) : (as.map g).mapM f = .ok as := by
  induction as with
  | nil => rfl
  | cons a as ih =>
    rw [List.map_cons, List.mapM_cons, h a List.mem_cons_self]
    have hrest := ih fun a' ha' => h a' (List.mem_cons_of_mem a ha')
    rw [hrest]
    rfl

/-- Reading the items of a vector gives its entries. -/
theorem readRow_itemChars (literal : List Char) {entries : IntVector} (h : 2 ≤ entries.length) :
    readRow literal (itemChars (entries.map Integer.text)) = .ok entries := by
  have hentry (n : Integer) : readEntry literal (Text.trim n.text.toList) = .ok n := by
    rw [n.trimmed_text.trim_eq, n.readEntry_text]
  have hspaced (n : Integer) : readEntry literal (Text.trim (' ' :: n.text.toList)) = .ok n := by
    rw [Text.trim_blank_cons (by decide), hentry]
  cases entries with
  | nil => cases h
  | cons n entries =>
    have hpieces : Text.splitOn ',' (itemChars ((n :: entries).map Integer.text)) =
        n.text.toList :: entries.map fun m => ' ' :: m.text.toList := by
      have hjoined : itemChars ((n :: entries).map Integer.text) =
          [','].intercalate (n.text.toList :: entries.map fun m => ' ' :: m.text.toList) := by
        rw [itemChars, List.map_cons, List.map_cons, Text.intercalate_cons_separator, List.map_map,
          List.map_map]
        rfl
      rw [hjoined]
      refine Text.splitOn_intercalate ?_ (List.cons_ne_nil _ _)
      intro piece hpiece
      rcases List.mem_cons.mp hpiece with rfl | hrest
      · exact Integer.not_mem_text (by decide) (by decide) n
      · obtain ⟨m, _, rfl⟩ := List.mem_map.mp hrest
        intro hmem
        rcases List.mem_cons.mp hmem with heq | htext
        · exact absurd heq (by decide)
        · exact Integer.not_mem_text (by decide) (by decide) m htext
    have hread : (entries.map fun m => ' ' :: m.text.toList).mapM
        (fun entry => readEntry literal (Text.trim entry)) = .ok entries :=
      mapM_map_ok fun m _ => hspaced m
    rw [readRow, hpieces, List.mapM_cons, hentry, hread]
    exact if_neg (by omega)

/-- The text of a list is trimmed. -/
theorem trimmed_listText (items : List String) : Text.Trimmed (Value.listText items).toList := by
  rw [Value.toList_listText]
  exact (Text.trimmed_singleton (by decide)).surround (Text.trimmed_singleton (by decide)) _

/-- Between the brackets of a text of a list are its items. -/
theorem between?_listText (items : List String) :
    Text.between? '[' ']' (Text.trim (Value.listText items).toList) = some (itemChars items) := by
  rw [(trimmed_listText items).trim_eq, Value.toList_listText]
  exact Text.between?_delimited '[' ']' _

/-- Reading the text of a vector gives the vector. -/
theorem readArray_vectorText {entries : IntVector} (h : 2 ≤ entries.length) :
    readArray (Value.vectorText entries).toList = .ok (.vector entries) := by
  have hne : entries ≠ [] := by
    rintro rfl
    cases h
  have htrimmed := Value.trimmed_itemChars hne Integer.trimmed_text
  have hhead : (itemChars (entries.map Integer.text)).head? ≠ some '[' := by
    intro hbracket
    exact Integer.not_mem_itemChars (by decide) (by decide) (by decide) (by decide) entries
      (List.mem_of_head? hbracket)
  simp only [readArray, Value.vectorText, between?_listText, Option.map_some, htrimmed.trim_eq, if_neg hhead,
    readRow_itemChars _ h]
  rfl

/-! ## Matrices -/

/-- A row ends at the first closing bracket. -/
theorem cutRow_bracketed (literal : List Char) {row : List Char} (h : ']' ∉ row) (after : List Char) :
    cutRow literal ('[' :: row ++ ']' :: after) = .ok (row, after) := by
  have hclose := Text.offset?_append (Text.forall_beq_eq_false h) (beq_self_eq_true ']') after
  have hrow : Text.cutAt (Text.byteLength row) (row ++ ']' :: after) = .ok (row, ']' :: after) := Text.cutAt_append _ _
  have hafter : Text.cutAt (Text.byteLength row + 1) (row ++ ']' :: after) = .ok (row ++ [']'], after) := by
    have hcut := Text.cutAt_append (row ++ [']']) after
    rw [Text.byteLength_append, List.append_assoc] at hcut
    exact hcut
  simp only [cutRow, List.cons_append, hclose, hrow, hafter]

/-- Behind a row of the right width, the text ends or goes on with a row of the same width. -/
theorem readRows_step {literal cs row after : List Char} {width? : Option Nat}
    (hrow : cutRow literal cs = .ok (row, after))
    (hwidth : ∀ entries, readRow literal row = .ok entries → ∀ width ∈ width?, width = entries.length) :
    readRows literal width? cs = do
      let entries ← readRow literal row
      match ← afterComma literal after with
      | none => return [entries]
      | some rest => return entries :: (← readRows literal (some entries.length) rest) := by
  rw [readRows_eq, hrow]
  change readRow literal row >>= _ = _
  cases hentries : readRow literal row with
  | error cause => rfl
  | ok entries =>
    have hany : ¬ width?.any (· != entries.length) = true := by
      cases width? with
      | none => simp
      | some width => simp [hwidth entries hentries width rfl]
    exact if_neg hany

/-- The items of a matrix are its rows in brackets. -/
theorem itemChars_vectorText_cons (row row' : IntVector) (rows : IntMatrix) :
    itemChars ((row :: row' :: rows).map Value.vectorText) =
      '[' :: itemChars (row.map Integer.text) ++
        ']' :: ',' :: ' ' :: itemChars ((row' :: rows).map Value.vectorText) := by
  simp only [itemChars, List.map_cons, List.intercalate_cons_cons]
  rw [Value.vectorText, Value.toList_listText]
  simp [itemChars]

/-- The items of a matrix start with a bracket. -/
theorem exists_itemChars_vectorText (row : IntVector) (rows : IntMatrix) :
    ∃ cs, itemChars ((row :: rows).map Value.vectorText) = '[' :: cs := by
  cases rows with
  | nil => exact ⟨_, by rw [itemChars, List.map_singleton, List.map_singleton, List.intercalate_singleton,
      Value.vectorText, Value.toList_listText, List.cons_append]⟩
  | cons row' rows => exact ⟨_, by rw [itemChars_vectorText_cons, List.cons_append]⟩

/-- Reading the items of a matrix gives its rows, by induction on their number. -/
theorem readRows_itemChars (literal : List Char) {rows : IntMatrix} {width : Nat} (hne : rows ≠ [])
    (hwidth : 2 ≤ width) (hrows : ∀ row ∈ rows, row.length = width) {width? : Option Nat}
    (hexpected : ∀ w ∈ width?, w = width) :
    readRows literal width? (itemChars (rows.map Value.vectorText)) = .ok rows := by
  induction rows generalizing width? with
  | nil => exact absurd rfl hne
  | cons row rows ih =>
    have hlength : row.length = width := hrows row List.mem_cons_self
    have hentries : readRow literal (itemChars (row.map Integer.text)) = .ok row :=
      readRow_itemChars literal (by omega)
    have hbracket : ']' ∉ itemChars (row.map Integer.text) :=
      Integer.not_mem_itemChars (by decide) (by decide) (by decide) (by decide) row
    have hexpected' : ∀ entries, readRow literal (itemChars (row.map Integer.text)) = .ok entries →
        ∀ w ∈ width?, w = entries.length := by
      intro entries h w hw
      cases hentries.symm.trans h
      rw [hexpected w hw, hlength]
    cases rows with
    | nil =>
      have hcut := cutRow_bracketed literal hbracket []
      have hchars : itemChars ([row].map Value.vectorText) =
          '[' :: itemChars (row.map Integer.text) ++ [']'] := by
        rw [← Value.toList_listText]
        exact List.intercalate_singleton
      rw [hchars, readRows_step hcut hexpected', hentries]
      rfl
    | cons row' rows =>
      have hcut := cutRow_bracketed literal hbracket
        (',' :: ' ' :: itemChars ((row' :: rows).map Value.vectorText))
      have hafter : afterComma literal (',' :: ' ' :: itemChars ((row' :: rows).map Value.vectorText)) =
          .ok (some (itemChars ((row' :: rows).map Value.vectorText))) := by
        obtain ⟨cs, hcs⟩ := exists_itemChars_vectorText row' rows
        simp only [afterComma, Text.trimStart_cons (show Text.isBlank ',' = false by decide)]
        rw [Text.trimStart_blank_cons (by decide), hcs, Text.trimStart_cons (by decide)]
      have hsame : ∀ w ∈ some row.length, w = width := by
        rintro w ⟨⟩
        exact hlength
      have hrest := ih (List.cons_ne_nil _ _) (fun r hr => hrows r (List.mem_cons_of_mem row hr)) hsame
      rw [itemChars_vectorText_cons, readRows_step hcut hexpected', hentries, hafter]
      exact congrArg (· >>= fun rows => .ok (row :: rows)) hrest

/-- Reading the text of a matrix gives the matrix. -/
theorem readArray_matrixText {rows : IntMatrix} (h : (Value.matrix rows).Shaped) :
    readArray (Value.listText (rows.map Value.vectorText)).toList = .ok (.matrix rows) := by
  obtain ⟨height, width, hheight, hwidth, hlength, hrows⟩ := h
  have hne : rows ≠ [] := by
    rintro rfl
    rw [← hlength] at hheight
    cases hheight
  have htrimmed : Text.Trimmed (itemChars (rows.map Value.vectorText)) :=
    Value.trimmed_itemChars hne fun row => trimmed_listText (row.map Integer.text)
  have hhead : (itemChars (rows.map Value.vectorText)).head? = some '[' := by
    cases rows with
    | nil => exact absurd rfl hne
    | cons row rows =>
      obtain ⟨cs, hcs⟩ := exists_itemChars_vectorText row rows
      rw [hcs]
      rfl
  have hread (literal : List Char) : readRows literal none (itemChars (rows.map Value.vectorText)) = .ok rows :=
    readRows_itemChars literal hne hwidth hrows (fun w hw => by cases hw)
  have hmany : ¬ rows.length = 1 := by omega
  simp only [readArray, between?_listText, Option.map_some, htrimmed.trim_eq, if_pos hhead, hread]
  exact if_neg hmany

end Literal

end StackLang
