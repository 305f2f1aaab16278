import StackLang.Program
import StackLang.Proofs.ArrayText
import StackLang.Proofs.Scanning
import StackLang.Proofs.StackSteps

/-!
# A printed stack is a program

Integers, truth values, strings and arrays are printed as the literals that stand for them. The texts of such
values, one to a line, are therefore a program that leaves exactly these values. Strings that hold a quotation
mark or a line feed are left out, since literals cannot hold these; so are floats, symbols and lambdas.
-/

namespace StackLang

namespace Value

/-- Whether a value is printed as a literal that stands for it. -/
def Readable : Value → Prop
  | integer _ | boolean _ => True
  | string s => '"' ∉ s.toList ∧ '\n' ∉ s.toList
  | vector entries => (vector entries).Shaped
  | matrix rows => (matrix rows).Shaped
  | float _ | symbol _ | lambda _ => False

/-- A line that holds a single token, whatever the lines around it are. -/
structure IsTokenLine (cs : List Char) : Prop where
  ne_nil : cs ≠ []
  no_feed : '\n' ∉ cs
  no_return : cs.getLast? ≠ some '\r'
  scan : Token.scan cs = .ok [String.ofList cs]

/-- A line without blanks that starts with a bare word is a token. -/
theorem isTokenLine_bare {first : Char} {cs : List Char} (hstring : first ≠ '"') (harray : first ≠ '[')
    (hlambda : first ≠ '\x7b') (hblank : ∀ c ∈ first :: cs, Text.isBlank c = false) :
    IsTokenLine (first :: cs) where
  ne_nil := List.cons_ne_nil first cs
  no_feed h := absurd (hblank '\n' h) (by decide)
  no_return h := absurd (hblank '\r' (List.mem_of_getLast? h)) (by decide)
  scan := by
    have hend : ∀ c ∈ ([] : List Char).head?, Text.isBlank c = true := nofun
    have hlength := Token.tokenLength_bare hstring harray hlambda hblank hend
    rw [List.append_nil] at hlength
    exact Token.scan_single (hblank first List.mem_cons_self) hlength

/-- The text of an integer is a token. -/
theorem isTokenLine_integer (n : Integer) : IsTokenLine n.text.toList := by
  obtain ⟨first, rest, hcs, hfirst⟩ := n.exists_cons_text
  have hblank : ∀ c ∈ first :: rest, Text.isBlank c = false := by
    intro c hc
    rw [← hcs] at hc
    exact Integer.isBlank_of_mem_text hc
  rw [hcs]
  exact isTokenLine_bare (hfirst '"' (by decide) (by decide)) (hfirst '[' (by decide) (by decide))
    (hfirst '\x7b' (by decide) (by decide)) hblank

/-- The text of a truth value is a token. -/
theorem isTokenLine_boolean (b : Bool) : IsTokenLine (boolean b).text.toList := by
  have hall : ∀ b : Bool, ∀ c ∈ (boolean b).text.toList, Text.isBlank c = false := by
    intro b c hc
    have hnone : (boolean b).text.toList.any Text.isBlank = false := by cases b <;> rfl
    exact Bool.eq_false_iff.mpr (List.any_eq_false.mp hnone c hc)
  cases b with
  | false => exact isTokenLine_bare (by decide) (by decide) (by decide) (hall false)
  | true => exact isTokenLine_bare (by decide) (by decide) (by decide) (hall true)

/-- A line from the first character of a token to the last one is a token. -/
theorem isTokenLine_delimited {first last : Char} {middle : List Char} (hfirst : Text.isBlank first = false)
    (hlast : Text.isBlank last = false) (hfeed : '\n' ∉ middle)
    (hlength : Token.tokenLength first (middle ++ [last]) = .ok (Text.byteLength (first :: middle ++ [last]))) :
    IsTokenLine (first :: middle ++ [last]) where
  ne_nil := List.cons_ne_nil _ _
  no_feed h := by
    rcases List.mem_append.mp h with hfront | hend
    · rcases List.mem_cons.mp hfront with rfl | hmiddle
      · exact absurd hfirst (by decide)
      · exact hfeed hmiddle
    · obtain rfl := List.mem_singleton.mp hend
      exact absurd hlast (by decide)
  no_return h := by
    rw [List.getLast?_concat] at h
    cases h
    exact absurd hlast (by decide)
  scan := by
    rw [List.cons_append] at hlength ⊢
    exact Token.scan_single hfirst hlength

/-- The text of a string is a token, if its contents can stand in a literal. -/
theorem isTokenLine_string {cs : List Char} (hquote : '"' ∉ cs) (hfeed : '\n' ∉ cs) :
    IsTokenLine ('"' :: cs ++ ['"']) :=
  isTokenLine_delimited (by decide) (by decide) hfeed (Token.tokenLength_string hquote [])

/-- A text in brackets is a token, if the brackets in it balance. -/
theorem isTokenLine_array {inner : List Char} (hfeed : '\n' ∉ inner) (hpasses : Token.Passes 1 inner) :
    IsTokenLine ('[' :: inner ++ [']']) :=
  isTokenLine_delimited (by decide) (by decide) hfeed (Token.tokenLength_array hpasses [])

/-- The brackets of a vector's items balance, since there are none. -/
theorem passes_itemChars (depth : Nat) (entries : IntVector) :
    Token.Passes depth (itemChars (entries.map Integer.text)) := by
  apply Token.passes_of_forall
  intro c hc
  constructor
  · rintro rfl
    exact Integer.not_mem_itemChars (by decide) (by decide) (by decide) (by decide) entries hc
  · rintro rfl
    exact Integer.not_mem_itemChars (by decide) (by decide) (by decide) (by decide) entries hc

/-- The text of a vector is a token. -/
theorem isTokenLine_vector (entries : IntVector) : IsTokenLine (vectorText entries).toList := by
  rw [vectorText, toList_listText]
  refine isTokenLine_array ?_ (passes_itemChars 1 entries)
  exact Integer.not_mem_itemChars (by decide) (by decide) (by decide) (by decide) entries

/-- The text of a matrix is a token. -/
theorem isTokenLine_matrix (rows : IntMatrix) : IsTokenLine (listText (rows.map vectorText)).toList := by
  rw [toList_listText]
  refine isTokenLine_array ?_ ?_
  · intro hfeed
    rcases mem_itemChars hfeed with hcomma | hspace | ⟨row, _, hc⟩
    · exact absurd hcomma (by decide)
    · exact absurd hspace (by decide)
    · exact (isTokenLine_vector row).no_feed hc
  · refine Token.passes_intercalate (Token.passes_of_forall (by simp)) fun part hpart => ?_
    obtain ⟨row, _, rfl⟩ := exists_of_mem_itemParts hpart
    rw [vectorText, toList_listText]
    exact (passes_itemChars 2 row).bracketed

/-- The text of a readable value is a token. -/
theorem Readable.isTokenLine {v : Value} (h : v.Readable) : IsTokenLine v.text.toList := by
  cases v with
  | integer n => exact isTokenLine_integer n
  | boolean b => exact isTokenLine_boolean b
  | string s =>
    have htext : (string s).text.toList = '"' :: s.toList ++ ['"'] := by simp [text]
    rw [htext]
    exact isTokenLine_string h.1 h.2
  | vector entries => exact isTokenLine_vector entries
  | matrix rows => exact isTokenLine_matrix rows
  | float _ | symbol _ | lambda _ => exact h.elim

end Value

/-! ## Evaluation -/

/-- A token that starts no literal in brackets or braces and is not quoted is a word or a string. -/
theorem evalToken_of_first {text : String} {first : Char} {rest : List Char}
    (htext : text.toList = first :: rest) (harray : first ≠ '[') (hlambda : first ≠ '\x7b')
    (hquoted : first ≠ '\'') (limit : Nat) (below? : Option Level) :
    evalToken limit below? text =
      match Word.ofChars? text.toList with
      | some word => word.run limit below? text.toList
      | none => Stack.push (.string (String.ofList (stringContents text.toList))) := by
  unfold evalToken
  split
  · rename_i h
    rw [htext] at h
    cases h
    exact absurd rfl harray
  · rename_i h
    rw [htext] at h
    cases h
    exact absurd rfl hlambda
  · rename_i h
    rw [htext] at h
    cases h
    exact absurd rfl hquoted
  · rfl

/-- No word starts with a quotation mark. -/
theorem Word.ofChars?_quotation (cs : List Char) : ofChars? ('"' :: cs) = none := by
  have hnone : candidates ('"' :: cs) = [] := rfl
  rw [ofChars?, hnone]
  rfl

/-- Evaluating the text of an integer puts the integer on the stack. -/
theorem evalToken_integerText (n : Integer) (limit : Nat) (below? : Option Level) :
    evalToken limit below? n.text = Stack.push (.integer n) := by
  obtain ⟨first, rest, hcs, hfirst⟩ := n.exists_cons_text
  rw [evalToken_of_first hcs (hfirst '[' (by decide) (by decide)) (hfirst '\x7b' (by decide) (by decide))
    (hfirst '\'' (by decide) (by decide)), Word.ofChars?_of_isIntegerText n.isIntegerText_text]
  simp only [Word.run, n.readInteger_text]
  rfl

/-- Evaluating the text of a string puts the string on the stack. -/
theorem evalToken_stringText (s : String) (limit : Nat) (below? : Option Level) :
    evalToken limit below? (Value.string s).text = Stack.push (.string s) := by
  have htext : (Value.string s).text.toList = '"' :: s.toList ++ ['"'] := by simp [Value.text]
  have hcontents : String.ofList (stringContents (Value.string s).text.toList) = s := by
    rw [htext, stringContents, Text.between?_delimited]
    exact String.ofList_toList
  have hword : Word.ofChars? (Value.string s).text.toList = none := by
    rw [htext]
    exact Word.ofChars?_quotation _
  rw [evalToken_of_first htext (by decide) (by decide) (by decide), hword, hcontents]

/-- Evaluating a text that is read as an array puts the array on the stack. -/
theorem evalToken_arrayText {text : String} {rest : List Char} {v : Value} (htext : text.toList = '[' :: rest)
    (hread : Literal.readArray text.toList = .ok v) (limit : Nat) (below? : Option Level) :
    evalToken limit below? text = Stack.push v := by
  rw [htext] at hread
  simp only [evalToken, htext, hread]
  rfl

/-- Evaluating the text of a readable value puts the value on the stack. -/
theorem evalToken_text {v : Value} (h : v.Readable) (limit : Nat) (below? : Option Level) :
    evalToken limit below? v.text = Stack.push v := by
  cases v with
  | integer n => exact evalToken_integerText n limit below?
  | boolean b => cases b <;> rfl
  | string s => exact evalToken_stringText s limit below?
  | vector entries =>
    exact evalToken_arrayText (Value.toList_listText _) (Literal.readArray_vectorText h) limit below?
  | matrix rows =>
    exact evalToken_arrayText (Value.toList_listText _) (Literal.readArray_matrixText h) limit below?
  | float _ | symbol _ | lambda _ => exact h.elim

/-- Tokens with the texts of readable values put these values on the stack, as long as there is room. -/
theorem evalTokens_texts {values : List Value} (hvalues : ∀ v ∈ values, v.Readable) {tokens : List Token}
    (htokens : tokens.map Token.text = values.map Value.text) (limit levels : Nat) {s : Stack}
    (hroom : s.size + values.length ≤ s.capacity) :
    ∃ s', evalTokens limit levels tokens s = .ok () s' ∧ s'.toList = s.toList ++ values := by
  induction values generalizing tokens s with
  | nil =>
    obtain rfl : tokens = [] := List.map_eq_nil_iff.mp htokens
    exact ⟨s, rfl, by rw [List.append_nil]⟩
  | cons v values ih =>
    obtain ⟨token, tokens, rfl, htext, hrest⟩ := List.map_eq_cons_iff.mp htokens
    have hpush : evalToken limit (levelBelow? limit levels) token.text s = .ok () (s.cons v) := by
      rw [List.length_cons] at hroom
      rw [htext, evalToken_text (hvalues v List.mem_cons_self), Stack.push_apply, if_neg (by omega)]
    have hroom' : (s.cons v).size + values.length ≤ (s.cons v).capacity := by
      rw [List.length_cons] at hroom
      change s.size + 1 + values.length ≤ s.capacity
      omega
    obtain ⟨s', heval, hlist⟩ := ih (fun w hw => hvalues w (List.mem_cons_of_mem v hw)) hrest hroom'
    refine ⟨s', ?_, ?_⟩
    · rw [evalTokens_cons_of_ok hpush, heval]
    · rw [hlist]
      simp [Stack.toList, Stack.cons]

/-! ## Programs -/

/-- Lines that hold a token each are cut into these tokens. -/
theorem Token.ofLines_of_isTokenLine {texts : List String} (h : ∀ text ∈ texts, Value.IsTokenLine text.toList)
    (line : Nat) :
    ∃ tokens, ofLines line (texts.map String.toList) = .ok tokens ∧ tokens.map Token.text = texts := by
  induction texts generalizing line with
  | nil => exact ⟨[], rfl, rfl⟩
  | cons text texts ih =>
    obtain ⟨tokens, htokens, hmap⟩ := ih (fun t ht => h t (List.mem_cons_of_mem text ht)) (line + 1)
    have hline : ofLine line text.toList = .ok [{ text, line }] := by
      rw [ofLine, (h text List.mem_cons_self).scan, String.ofList_toList]
      rfl
    refine ⟨{ text, line } :: tokens, ?_, by rw [List.map_cons, hmap]⟩
    rw [List.map_cons, ofLines, hline, htokens]
    rfl

/-- The texts of readable values, one to a line, are a program that leaves exactly these values. -/
theorem Program.result_texts {values : List Value} (hvalues : ∀ v ∈ values, v.Readable) {limits : Limits}
    (hsize : values.length ≤ limits.stackSize) :
    result limits ("\n".intercalate (values.map Value.text)) = .ok values := by
  have hlines : ∀ text ∈ values.map Value.text, Value.IsTokenLine text.toList := by
    intro text htext
    obtain ⟨v, hv, rfl⟩ := List.mem_map.mp htext
    exact (hvalues v hv).isTokenLine
  have hcut : Text.lines ("\n".intercalate (values.map Value.text)).toList =
      (values.map Value.text).map String.toList := by
    rw [String.toList_intercalate]
    have hpiece {piece : List Char} (hp : piece ∈ (values.map Value.text).map String.toList) :
        Value.IsTokenLine piece := by
      obtain ⟨text, htext, rfl⟩ := List.mem_map.mp hp
      exact hlines text htext
    exact Text.lines_intercalate (fun _ hp => (hpiece hp).no_feed) (fun _ hp => (hpiece hp).no_return)
      (fun _ hp => (hpiece hp).ne_nil)
  obtain ⟨tokens, htokens, htexts⟩ := Token.ofLines_of_isTokenLine hlines 1
  have hroom : (Stack.empty limits.stackSize).size + values.length ≤ limits.stackSize := by
    simpa [Stack.empty, Stack.ofList] using hsize
  obtain ⟨s, heval, hlist⟩ := evalTokens_texts hvalues htexts limits.depth limits.depth hroom
  rw [result, Token.ofSource, hcut, htokens]
  simp only [heval, hlist]
  rfl

/-- The least integer, a string that looks like an open array, a vector and a matrix are read back. -/
theorem Program.result_texts_mixed :
    result { depth := 0, stackSize := 5 }
        "-9223372036854775808\nfalse\n\"[1, \"\n[1, -2]\n[[1, 2, 3], [4, 5, 6]]" =
      .ok [.integer (-9223372036854775808), .boolean false, .string "[1, ", .vector [1, -2],
        .matrix [[1, 2, 3], [4, 5, 6]]] := by
  have htexts : "-9223372036854775808\nfalse\n\"[1, \"\n[1, -2]\n[[1, 2, 3], [4, 5, 6]]" =
      "\n".intercalate ([.integer (-9223372036854775808), .boolean false, .string "[1, ", .vector [1, -2],
        .matrix [[1, 2, 3], [4, 5, 6]]].map Value.text) := by decide
  rw [htexts]
  refine result_texts ?_ (by decide)
  simp only [List.forall_mem_cons, Value.Readable, Value.Shaped, true_and]
  exact ⟨by decide, by decide, ⟨2, 3, by decide, by decide, rfl, by decide⟩, by simp⟩

end StackLang
