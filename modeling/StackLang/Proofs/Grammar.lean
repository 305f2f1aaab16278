import StackLang.Proofs.Scanning

/-!
# The grammar of a line

A line is made of tokens with gaps of blanks before, between and behind them. A token is a string up to its next
quotation mark, an array up to the bracket that balances its first one, a lambda up to the next closing brace,
or a bare word, which goes on to the next blank. Only bare words need a gap behind them.

The grammar is stated without reference to the way in which a line is scanned. Scanning follows it in both
directions: a line is cut into tokens exactly if the grammar takes it apart, which it does in at most one way,
and a line that is refused leaves a literal open behind the tokens that come before it.
-/

namespace StackLang.Token

open Text (isBlank)

/-! ## Brackets -/

/-- Whether a text closes as many brackets as it opens, and `depth` more. -/
def Balances (depth : Nat) (cs : List Char) : Prop := depth + cs.count '[' = cs.count ']'

/-- Whether a text closes `depth` open brackets with its last character, and not before. -/
structure Closes (depth : Nat) (cs : List Char) : Prop where
  balances : Balances depth cs
  first {front : List Char} : front <+: cs → Balances depth front → front = cs

/-- Whether some of `depth` open brackets are open wherever a text is broken off. -/
def StaysOpen (depth : Nat) (cs : List Char) : Prop := ∀ front, front <+: cs → ¬ Balances depth front

/-- The texts that close a number of open brackets, character by character. -/
inductive Closing : (depth : Nat) → List Char → Prop
  | last : Closing 1 [']']
  | opening {depth : Nat} {cs : List Char} (h : Closing (depth + 1) cs) : Closing depth ('[' :: cs)
  | closing {depth : Nat} {cs : List Char} (h : Closing (depth + 1) cs) : Closing (depth + 2) (']' :: cs)
  | other {depth : Nat} {c : Char} {cs : List Char} (hopening : c ≠ '[') (hclosing : c ≠ ']')
      (h : Closing depth cs) : Closing depth (c :: cs)

section

variable {depth depth' : Nat} {c : Char} {cs : List Char}

/-- An opening bracket is one more to close. -/
theorem balances_opening : Balances depth ('[' :: cs) ↔ Balances (depth + 1) cs := by
  simp only [Balances, List.count_cons]
  simp
  omega

/-- A closing bracket is one less to close. -/
theorem balances_closing : Balances (depth + 1) (']' :: cs) ↔ Balances depth cs := by
  simp only [Balances, List.count_cons]
  simp
  omega

/-- No other character counts. -/
theorem balances_other (hopening : c ≠ '[') (hclosing : c ≠ ']') :
    Balances depth (c :: cs) ↔ Balances depth cs := by
  simp only [Balances, List.count_cons]
  simp [hopening, hclosing]

/-- Behind a first character a text closes the brackets that are open there. -/
theorem Closes.tail (h : Closes depth (c :: cs))
    (hc : ∀ cs, Balances depth (c :: cs) ↔ Balances depth' cs) : Closes depth' cs where
  balances := (hc cs).mp h.balances
  first {front} hinitial hfront := by
    have hcons := h.first (List.cons_prefix_cons.mpr ⟨rfl, hinitial⟩) ((hc front).mpr hfront)
    exact List.tail_eq_of_cons_eq hcons

/-- Behind a first character brackets stay open that are open there. -/
theorem StaysOpen.tail (h : StaysOpen depth (c :: cs))
    (hc : ∀ cs, Balances depth (c :: cs) ↔ Balances depth' cs) : StaysOpen depth' cs :=
  fun front hinitial hfront => h (c :: front) (List.cons_prefix_cons.mpr ⟨rfl, hinitial⟩) ((hc front).mpr hfront)

/-- A text that closes the open brackets does so character by character. -/
theorem Closes.closing (h : Closes (depth + 1) cs) : Closing (depth + 1) cs := by
  induction cs generalizing depth with
  | nil => exact absurd h.balances (by simp [Balances])
  | cons c cs ih =>
    by_cases hopening : c = '['
    · subst hopening
      exact .opening (ih (h.tail fun _ => balances_opening))
    · by_cases hclosing : c = ']'
      · subst hclosing
        cases depth with
        | zero =>
          have hcs : [']'] = ']' :: cs := h.first (by simp) rfl
          rw [← hcs]
          exact .last
        | succ depth => exact .closing (ih (h.tail fun _ => balances_closing))
      · exact .other hopening hclosing (ih (h.tail fun _ => balances_other hopening hclosing))

/-- A text that balances has a first place where it does. -/
theorem exists_closes {front : List Char} (h : Balances depth front) :
    ∃ first, first <+: front ∧ Closes depth first := by
  by_cases hearlier : ∃ shorter, shorter <+: front ∧ shorter ≠ front ∧ Balances depth shorter
  · obtain ⟨shorter, hinitial, hne, hbalances⟩ := hearlier
    have hlength : shorter.length < front.length :=
      Nat.lt_of_le_of_ne hinitial.length_le fun heq => hne (hinitial.eq_of_length heq)
    obtain ⟨first, hfirst, hcloses⟩ := exists_closes hbalances
    exact ⟨first, hfirst.trans hinitial, hcloses⟩
  · refine ⟨front, List.prefix_rfl, h, fun {shorter} hinitial hbalances => ?_⟩
    exact Classical.byContradiction fun hne => hearlier ⟨shorter, hinitial, hne, hbalances⟩
termination_by front.length

/-- The last character of a text that closes brackets is a bracket. -/
theorem Closing.exists_append (h : Closing depth cs) : ∃ front, cs = front ++ [']'] := by
  induction h with
  | last => exact ⟨[], rfl⟩
  | opening _ ih | closing _ ih | other _ _ _ ih =>
    obtain ⟨front, rfl⟩ := ih
    exact ⟨_ :: front, rfl⟩

/-- The rest of an array is counted to the place where its brackets are closed. -/
theorem Closing.arrayLength_append (h : Closing depth cs) (rest : List Char) :
    arrayLength depth (cs ++ rest) = .ok (Text.byteLength cs) := by
  induction h with
  | last => exact arrayLength_last rest
  | opening _ ih =>
    rw [List.cons_append, arrayLength_opening, ih]
    rfl
  | closing _ ih =>
    rw [List.cons_append, arrayLength_closing, ih]
    rfl
  | other hopening hclosing _ ih =>
    rw [List.cons_append, arrayLength_other hopening hclosing, ih]
    rfl

/-- An array whose brackets stay open is not counted. -/
theorem StaysOpen.arrayLength_eq (h : StaysOpen (depth + 1) cs) :
    arrayLength (depth + 1) cs = .error (.unterminated .array) := by
  induction cs generalizing depth with
  | nil => rfl
  | cons c cs ih =>
    by_cases hopening : c = '['
    · subst hopening
      rw [arrayLength_opening, ih (h.tail fun _ => balances_opening)]
      rfl
    · by_cases hclosing : c = ']'
      · subst hclosing
        cases depth with
        | zero => exact absurd rfl (h [']'] (by simp))
        | succ depth =>
          rw [arrayLength_closing, ih (h.tail fun _ => balances_closing)]
          rfl
      · rw [arrayLength_other hopening hclosing, ih (h.tail fun _ => balances_other hopening hclosing)]
        rfl

end

/-! ## Tokens -/

/-- Whether a text starts with a bracket, and the number of opening brackets in it first comes back to that of
closing ones at its end. -/
structure IsArray (cs : List Char) : Prop where
  start : cs.head? = some '['
  balance : cs.count '[' = cs.count ']'
  first {front : List Char} : front <+: cs → front ≠ [] → front.count '[' = front.count ']' → front = cs

/-- The texts that are tokens in front of a rest. -/
inductive Lexeme : (text rest : List Char) → Prop
  | string {cs rest : List Char} (h : '"' ∉ cs) : Lexeme ('"' :: cs ++ ['"']) rest
  | array {cs rest : List Char} (h : IsArray cs) : Lexeme cs rest
  | lambda {cs rest : List Char} (h : '\x7d' ∉ cs) : Lexeme ('\x7b' :: cs ++ ['\x7d']) rest
  | bare {first : Char} {cs rest : List Char} (hstring : first ≠ '"') (harray : first ≠ '[')
      (hlambda : first ≠ '\x7b') (hblank : ∀ c ∈ first :: cs, isBlank c = false)
      (hrest : ∀ c ∈ rest.head?, isBlank c = true) : Lexeme (first :: cs) rest

/-- The texts that start with a literal which nothing in them closes. -/
inductive LeftOpen : OpenLiteral → List Char → Prop
  | string {cs : List Char} (h : '"' ∉ cs) : LeftOpen .string ('"' :: cs)
  | array {cs : List Char}
      (h : ∀ front, front <+: '[' :: cs → front ≠ [] → front.count '[' ≠ front.count ']') :
      LeftOpen .array ('[' :: cs)
  | lambda {cs : List Char} (h : '\x7d' ∉ cs) : LeftOpen .lambda ('\x7b' :: cs)

section

variable {text rest cs : List Char} {literal : OpenLiteral}

/-- With its first bracket a text has equally many of both kinds if it closes one open bracket behind it. -/
theorem count_eq_count_iff : ('[' :: cs).count '[' = ('[' :: cs).count ']' ↔ Balances 1 cs := by
  rw [← balances_opening, Balances, Nat.zero_add]

/-- Behind its first bracket an array closes one open bracket. -/
theorem isArray_cons_iff : IsArray ('[' :: cs) ↔ Closes 1 cs := by
  constructor
  · intro h
    refine ⟨count_eq_count_iff.mp h.balance, fun {front} hinitial hfront => ?_⟩
    have hcons : '[' :: front = '[' :: cs :=
      h.first (List.cons_prefix_cons.mpr ⟨rfl, hinitial⟩) (List.cons_ne_nil _ _) (count_eq_count_iff.mpr hfront)
    exact List.tail_eq_of_cons_eq hcons
  · intro h
    refine ⟨rfl, count_eq_count_iff.mpr h.balances, fun {front} hinitial hne hcount => ?_⟩
    obtain rfl | ⟨front, rfl, hfront⟩ := List.prefix_cons_iff.mp hinitial
    · exact absurd rfl hne
    · rw [h.first hfront (count_eq_count_iff.mp hcount)]

/-- Behind its first bracket an array that is left open leaves one bracket open. -/
theorem staysOpen_iff :
    (∀ front, front <+: '[' :: cs → front ≠ [] → front.count '[' ≠ front.count ']') ↔ StaysOpen 1 cs := by
  constructor
  · intro h front hinitial hfront
    exact h ('[' :: front) (List.cons_prefix_cons.mpr ⟨rfl, hinitial⟩) (List.cons_ne_nil _ _)
      (count_eq_count_iff.mpr hfront)
  · intro h front hinitial hne hcount
    obtain rfl | ⟨front, rfl, hfront⟩ := List.prefix_cons_iff.mp hinitial
    · exact hne rfl
    · exact h front hfront (count_eq_count_iff.mp hcount)

/-- A token has a blank at neither end. -/
theorem Lexeme.trimmed (h : Lexeme text rest) : Text.Trimmed text := by
  have hquote : Text.Trimmed ['"'] := Text.trimmed_singleton rfl
  have hopening : Text.Trimmed ['['] := Text.trimmed_singleton rfl
  have hclosing : Text.Trimmed [']'] := Text.trimmed_singleton rfl
  cases h with
  | string => exact hquote.surround hquote _
  | array h =>
    obtain ⟨cs, rfl⟩ := List.head?_eq_some_iff.mp h.start
    obtain ⟨front, rfl⟩ := (isArray_cons_iff.mp h).closing.exists_append
    exact hopening.surround hclosing front
  | lambda => exact (Text.trimmed_singleton rfl).surround (Text.trimmed_singleton rfl) _
  | bare _ _ _ hblank => exact Text.trimmed_of_forall (List.cons_ne_nil _ _) hblank

/-- The first character of a token, which is not blank, tells how long it is. -/
theorem Lexeme.tokenLength_eq (h : Lexeme text rest) :
    ∃ first front, text = first :: front ∧ isBlank first = false ∧
      tokenLength first (front ++ rest) = .ok (Text.byteLength (first :: front)) := by
  cases h with
  | @string cs _ h =>
    refine ⟨'"', cs ++ ['"'], rfl, rfl, ?_⟩
    rw [List.append_assoc, List.singleton_append, tokenLength_string h, List.cons_append]
  | array h =>
    obtain ⟨cs, rfl⟩ := List.head?_eq_some_iff.mp h.start
    refine ⟨'[', cs, rfl, rfl, ?_⟩
    rw [tokenLength, if_neg (by decide), if_pos rfl, arrayLength_opening,
      (isArray_cons_iff.mp h).closing.arrayLength_append rest, Text.byteLength_cons]
    rfl
  | @lambda cs _ h =>
    refine ⟨'\x7b', cs ++ ['\x7d'], rfl, rfl, ?_⟩
    rw [List.append_assoc, List.singleton_append, tokenLength_lambda h, List.cons_append]
  | @bare first cs _ hstring harray hlambda hblank hrest =>
    exact ⟨first, cs, rfl, hblank first List.mem_cons_self, tokenLength_bare hstring harray hlambda hblank hrest⟩

/-- A literal that is left open starts with a character that is not blank, and has no length. -/
theorem LeftOpen.tokenLength_eq (h : LeftOpen literal cs) :
    ∃ first rest, cs = first :: rest ∧ isBlank first = false ∧
      tokenLength first rest = .error (.unterminated literal) := by
  have hthrough {closing : Char} {cs : List Char} (more : Nat) (literal : OpenLiteral) (h : closing ∉ cs) :
      lengthThrough closing more literal cs = .error (.unterminated literal) := by
    rw [lengthThrough, Text.offset?_eq_none (Text.forall_beq_eq_false h)]
  cases h with
  | @string cs h => exact ⟨'"', cs, rfl, rfl, hthrough 2 .string h⟩
  | @array cs h =>
    refine ⟨'[', cs, rfl, rfl, ?_⟩
    rw [tokenLength, if_neg (by decide), if_pos rfl, arrayLength_opening, (staysOpen_iff.mp h).arrayLength_eq]
    rfl
  | @lambda cs h =>
    exact ⟨'\x7b', cs, rfl, rfl, hthrough 1 .lambda (List.not_mem_cons_of_ne_of_not_mem (by decide) h)⟩

/-- A text that does not start with a blank starts with a token or leaves a literal open. -/
theorem exists_lexeme_or_leftOpen {first : Char} (hfirst : isBlank first = false) (cs : List Char) :
    (∃ front rest, cs = front ++ rest ∧ Lexeme (first :: front) rest) ∨
      ∃ literal, LeftOpen literal (first :: cs) := by
  by_cases hstring : first = '"'
  · subst hstring
    by_cases hmem : '"' ∈ cs
    · obtain ⟨front, rest, rfl, hfront⟩ := List.eq_append_cons_of_mem hmem
      exact .inl ⟨front ++ ['"'], rest, by simp, .string hfront⟩
    · exact .inr ⟨.string, .string hmem⟩
  by_cases harray : first = '['
  · subst harray
    by_cases hopen : StaysOpen 1 cs
    · exact .inr ⟨.array, .array (staysOpen_iff.mpr hopen)⟩
    · simp only [StaysOpen, Classical.not_forall, Classical.not_not] at hopen
      obtain ⟨balanced, hinitial, hbalances⟩ := hopen
      obtain ⟨front, hfront, hcloses⟩ := exists_closes hbalances
      obtain ⟨rest, rfl⟩ := hfront.trans hinitial
      exact .inl ⟨front, rest, rfl, .array (isArray_cons_iff.mpr hcloses)⟩
  by_cases hlambda : first = '\x7b'
  · subst hlambda
    by_cases hmem : '\x7d' ∈ cs
    · obtain ⟨front, rest, rfl, hfront⟩ := List.eq_append_cons_of_mem hmem
      exact .inl ⟨front ++ ['\x7d'], rest, by simp, .lambda hfront⟩
    · exact .inr ⟨.lambda, .lambda hmem⟩
  refine .inl ⟨cs.takeWhile (fun c => !isBlank c), cs.dropWhile (fun c => !isBlank c),
    List.takeWhile_append_dropWhile.symm, .bare hstring harray hlambda ?_ ?_⟩
  · intro c hc
    rcases List.mem_cons.mp hc with rfl | hc
    · exact hfirst
    · simpa using List.all_eq_true.mp List.all_takeWhile c hc
  · intro c hc
    have hhead := List.head?_dropWhile_not (fun c => !isBlank c) cs
    rw [Option.mem_def.mp hc] at hhead
    simpa using hhead

/-- Of a text that starts with a token only one part is the token. -/
theorem Lexeme.unique {text' rest' : List Char} (h : Lexeme text rest) (h' : Lexeme text' rest')
    (heq : text ++ rest = text' ++ rest') : text = text' ∧ rest = rest' := by
  obtain ⟨first, front, rfl, -, hlength⟩ := h.tokenLength_eq
  obtain ⟨first', front', rfl, -, hlength'⟩ := h'.tokenLength_eq
  obtain ⟨rfl, hbehind⟩ : first = first' ∧ front ++ rest = front' ++ rest' := List.cons.inj heq
  rw [hbehind, hlength', Except.ok.injEq] at hlength
  exact Text.append_inj_of_byteLength heq hlength.symm

end

/-! ## Lines -/

/-- A token with the gap before it. -/
structure Part where
  gap : List Char
  text : List Char

/-- The token of a part, on a line. -/
def Part.token (line : Nat) (part : Part) : Token := { text := String.ofList part.text, line }

/-- A text that is cut into parts up to a rest. Every part's text is a token in front of all that follows it. -/
inductive Cut : (cs : List Char) → (parts : List Part) → (rest : List Char) → Prop
  | nil (rest : List Char) : Cut rest [] rest
  | cons {gap text cs rest : List Char} {parts : List Part} (hgap : ∀ c ∈ gap, isBlank c = true)
      (htext : Lexeme text cs) (hcut : Cut cs parts rest) : Cut (gap ++ text ++ cs) ({ gap, text } :: parts) rest

/-- A line taken apart into parts and a last gap. -/
structure Parsed (cs : List Char) (parts : List Part) (last : List Char) : Prop where
  cut : Cut cs parts last
  gap : ∀ c ∈ last, isBlank c = true

/-- Whether a line leaves a literal open behind parts that are tokens and a gap. -/
def Stuck (literal : OpenLiteral) (cs : List Char) : Prop :=
  ∃ parts gap rest, Cut cs parts (gap ++ rest) ∧ (∀ c ∈ gap, isBlank c = true) ∧ LeftOpen literal rest

section

variable {cs rest last gap : List Char} {parts : List Part} {literal : OpenLiteral}

/-- A token behind a gap is cut off. -/
theorem Lexeme.scan_eq {text : List Char} (h : Lexeme text rest) (htrim : Text.trimStart cs = text ++ rest) :
    scan cs = (scan rest).map fun texts => String.ofList text :: texts := by
  obtain ⟨first, front, rfl, -, hlength⟩ := h.tokenLength_eq
  exact scan_of_trimStart_cons htrim hlength

/-- A line is refused for a literal behind a gap that is left open. -/
theorem LeftOpen.scan_eq (h : LeftOpen literal rest) (htrim : Text.trimStart cs = rest) :
    scan cs = .error (.unterminated literal) := by
  obtain ⟨first, front, rfl, -, hlength⟩ := h.tokenLength_eq
  exact scan_of_tokenLength_error htrim hlength

/-- Only what follows the blanks at its start decides how a line is cut. -/
theorem scan_eq_of_trimStart_eq {cs' : List Char} (h : Text.trimStart cs = Text.trimStart cs') :
    scan cs = scan cs' := by
  obtain ⟨_, _, _, hfirst⟩ := Text.exists_gap cs'
  cases htrim : Text.trimStart cs' with
  | nil => rw [scan_of_trimStart_nil (h.trans htrim), scan_of_trimStart_nil htrim]
  | cons first tail =>
    rcases exists_lexeme_or_leftOpen (hfirst first tail htrim) tail with ⟨front, rest, rfl, htext⟩ | ⟨literal, hopen⟩
    · rw [htext.scan_eq (h.trans htrim), htext.scan_eq htrim]
    · rw [hopen.scan_eq (h.trans htrim), hopen.scan_eq htrim]

/-- A gap in front makes no difference to the tokens of a line. -/
theorem scan_gap_append (hgap : ∀ c ∈ gap, isBlank c = true) (cs : List Char) : scan (gap ++ cs) = scan cs :=
  scan_eq_of_trimStart_eq (Text.trimStart_gap_append hgap cs)

/-- The tokens of the parts come before those of the rest. -/
theorem Cut.scan_eq (h : Cut cs parts rest) :
    scan cs = (scan rest).map fun texts => parts.map (fun part => String.ofList part.text) ++ texts := by
  induction h with
  | nil rest => cases scan rest <;> rfl
  | cons hgap htext _ ih =>
    rename_i rest _ _
    rw [List.append_assoc, scan_gap_append hgap, htext.scan_eq (htext.trimmed.trimStart_append _), ih]
    cases scan rest <;> rfl

/-- A line that is taken apart is cut into the tokens of its parts. -/
theorem Parsed.scan_eq (h : Parsed cs parts last) :
    scan cs = .ok (parts.map fun part => String.ofList part.text) := by
  have hlast : scan last = .ok [] := by
    rw [← List.append_nil last, scan_gap_append h.gap]
    exact scan_of_trimStart_nil rfl
  rw [h.cut.scan_eq, hlast]
  exact congrArg Except.ok (List.append_nil _)

/-- A line that leaves a literal open is refused for it. -/
theorem Stuck.scan_eq (h : Stuck literal cs) : scan cs = .error (.unterminated literal) := by
  obtain ⟨parts, gap, rest, hcut, hgap, hopen⟩ := h
  obtain ⟨first, front, rfl, hfirst, -⟩ := hopen.tokenLength_eq
  rw [hcut.scan_eq, scan_gap_append hgap, hopen.scan_eq (Text.trimStart_cons hfirst front)]
  rfl

/-- Every line is taken apart or leaves a literal open. -/
theorem exists_parsed_or_stuck (cs : List Char) :
    (∃ parts last, Parsed cs parts last) ∨ ∃ literal, Stuck literal cs := by
  obtain ⟨gap, hgap, hcs, hfirst⟩ := Text.exists_gap cs
  cases htrim : Text.trimStart cs with
  | nil =>
    rw [htrim, List.append_nil] at hcs
    exact .inl ⟨[], cs, .nil cs, hcs ▸ hgap⟩
  | cons first tail =>
    rw [htrim] at hcs
    rcases exists_lexeme_or_leftOpen (hfirst first tail htrim) tail with ⟨front, rest, rfl, htext⟩ | ⟨literal, hopen⟩
    · have hlength : rest.length < cs.length := by
        rw [hcs]
        simp only [List.length_append, List.length_cons]
        omega
      have hpart {parts : List Part} {rest' : List Char} (h : Cut rest parts rest') :
          Cut cs ({ gap, text := first :: front } :: parts) rest' := by
        have hcut := Cut.cons hgap htext h
        rwa [List.append_assoc, List.cons_append, ← hcs] at hcut
      rcases exists_parsed_or_stuck rest with ⟨parts, last, h⟩ | ⟨literal, parts, gap', rest', hcut, hopen⟩
      · exact .inl ⟨_, last, hpart h.cut, h.gap⟩
      · exact .inr ⟨literal, _, gap', rest', hpart hcut, hopen⟩
    · exact .inr ⟨literal, [], gap, first :: tail, hcs ▸ .nil _, hgap, hopen⟩
termination_by cs.length

/-- Nothing is cut off a gap. -/
theorem Cut.eq_nil_of_blank (h : Cut cs parts rest) (hcs : ∀ c ∈ cs, isBlank c = true) :
    parts = [] ∧ cs = rest := by
  cases h with
  | nil => exact ⟨rfl, rfl⟩
  | cons _ htext =>
    obtain ⟨first, front, rfl, hfirst, -⟩ := htext.tokenLength_eq
    exact absurd (by simp) (Text.not_mem_gap hcs hfirst)

/-- A line is taken apart in one way only, gaps included. -/
theorem Parsed.unique {parts' : List Part} {last' : List Char} (h : Parsed cs parts last)
    (h' : Parsed cs parts' last') : parts = parts' ∧ last = last' := by
  obtain ⟨hcut, hlast⟩ := h
  induction hcut generalizing parts' with
  | nil rest =>
    obtain ⟨rfl, rfl⟩ := h'.cut.eq_nil_of_blank hlast
    exact ⟨rfl, rfl⟩
  | @cons gap text cs last parts hgap htext hcut ih =>
    obtain ⟨hcut', hlast'⟩ := h'
    generalize hwhole : gap ++ text ++ cs = whole at hcut'
    cases hcut' with
    | nil =>
      have hblank := (hwhole ▸ Cut.cons hgap htext hcut).eq_nil_of_blank hlast'
      cases hblank.1
    | cons hgap' htext' hcut' =>
      -- Without the gaps both texts start with their first tokens, which are therefore the same.
      rw [List.append_assoc, List.append_assoc] at hwhole
      have htrim := congrArg Text.trimStart hwhole
      rw [Text.trimStart_gap_append hgap, Text.trimStart_gap_append hgap', htext.trimmed.trimStart_append,
        htext'.trimmed.trimStart_append] at htrim
      obtain ⟨rfl, rfl⟩ := htext.unique htext' htrim
      obtain ⟨rfl, rfl⟩ := ih ⟨hcut', hlast'⟩ hlast
      rw [List.append_cancel_right hwhole]
      exact ⟨rfl, rfl⟩

/-- The tokens that are cut off a line have a blank at neither end. -/
theorem Cut.trimmed (h : Cut cs parts rest) : ∀ part ∈ parts, Text.Trimmed part.text := by
  induction h with
  | nil => exact nofun
  | cons _ htext _ ih => exact List.forall_mem_cons.mpr ⟨htext.trimmed, ih⟩

end

/-- A line that is taken apart has the tokens of its parts. -/
theorem Parsed.ofLine_eq {cs last : List Char} {parts : List Part} (h : Parsed cs parts last) (line : Nat) :
    ofLine line cs = .ok (parts.map (Part.token line)) := by
  rw [ofLine, h.scan_eq]
  simp [Part.token]

/-- A line is cut into tokens exactly if it can be taken apart, and then into the tokens of its parts. There is
only one way to take it apart, and no token is empty or has a blank at an end. A line that is refused leaves open
the literal that it is refused for, behind parts that are tokens. -/
theorem ofLine_parses (line : Nat) (cs : List Char) :
    (∀ tokens, ofLine line cs = .ok tokens ↔
      ∃ parts last, Parsed cs parts last ∧ tokens = parts.map (Part.token line)) ∧
    (∀ parts last parts' last', Parsed cs parts last → Parsed cs parts' last' → parts = parts' ∧ last = last') ∧
    (∀ parts last, Parsed cs parts last → ∀ part ∈ parts, Text.Trimmed part.text) ∧
    ∀ e, ofLine line cs = .error e ↔
      ∃ literal, e = { line, cause := .unterminated literal } ∧ Stuck literal cs := by
  have hstuck {literal : OpenLiteral} (h : Stuck literal cs) :
      ofLine line cs = .error { line, cause := .unterminated literal } := by
    rw [ofLine, h.scan_eq]
  refine ⟨fun tokens => ⟨fun h => ?_, ?_⟩, fun _ _ _ _ h h' => h.unique h', fun _ _ h => h.cut.trimmed,
    fun e => ⟨fun h => ?_, ?_⟩⟩
  · rcases exists_parsed_or_stuck cs with ⟨parts, last, hparts⟩ | ⟨literal, hopen⟩
    · rw [hparts.ofLine_eq, Except.ok.injEq] at h
      exact ⟨parts, last, hparts, h.symm⟩
    · rw [hstuck hopen] at h
      cases h
  · rintro ⟨parts, last, hparts, rfl⟩
    exact hparts.ofLine_eq line
  · rcases exists_parsed_or_stuck cs with ⟨parts, last, hparts⟩ | ⟨literal, hopen⟩
    · rw [hparts.ofLine_eq] at h
      cases h
    · rw [hstuck hopen, Except.error.injEq] at h
      exact ⟨literal, h.symm, hopen⟩
  · rintro ⟨literal, rfl, hopen⟩
    exact hstuck hopen

/-- A bracket in a string opens no array, and an array needs no gap behind it. A quotation mark in a bare word opens
no string, but the brace behind the gap opens a lambda. -/
theorem ofLine_parses_touching :
    (ofLine 3 "\"[\" [1]x".toList = .ok [⟨"\"[\"", 3⟩, ⟨"[1]", 3⟩, ⟨"x", 3⟩] ∧
      ∀ parts last, Parsed "\"[\" [1]x".toList parts last →
        parts.map Part.gap = [[], [' '], []] ∧ last = []) ∧
    ofLine 3 "x\" \x7b".toList = .error ⟨3, .unterminated .lambda⟩ := by
  have harray : IsArray ['[', '1', ']'] := by
    refine ⟨rfl, rfl, fun {front} hinitial hne hcount => ?_⟩
    simp only [List.prefix_cons_iff, List.prefix_nil] at hinitial
    obtain rfl | ⟨_, rfl, rfl | ⟨_, rfl, rfl | ⟨_, rfl, rfl⟩⟩⟩ := hinitial
    · exact absurd rfl hne
    · cases hcount
    · cases hcount
    · rfl
  have hnone : ∀ c ∈ ([] : List Char), isBlank c = true := nofun
  have hblank : ∀ c ∈ [' '], isBlank c = true := List.forall_mem_singleton.mpr rfl
  have hparsed : Parsed "\"[\" [1]x".toList [⟨[], ['"', '[', '"']⟩, ⟨[' '], ['[', '1', ']']⟩, ⟨[], ['x']⟩] [] := by
    have hinside : '"' ∉ ['['] := by simp
    have hstring : Lexeme ['"', '[', '"'] [' ', '[', '1', ']', 'x'] := .string hinside
    have hbare : Lexeme ['x'] [] := .bare (by decide) (by decide) (by decide) (List.forall_mem_singleton.mpr rfl) nofun
    exact ⟨.cons hnone hstring (.cons hblank (.array harray) (.cons hnone hbare (.nil []))), hnone⟩
  have hstuck : Stuck .lambda "x\" \x7b".toList := by
    have hbare : Lexeme ['x', '"'] [' ', '\x7b'] := by
      refine .bare (by decide) (by decide) (by decide) ?_ ?_
      · exact List.forall_mem_cons.mpr ⟨rfl, List.forall_mem_singleton.mpr rfl⟩
      · rintro c ⟨⟩
        rfl
    exact ⟨[⟨[], ['x', '"']⟩], [' '], ['\x7b'], .cons hnone hbare (.nil _), hblank, .lambda nofun⟩
  obtain ⟨htokens, hunique, -, -⟩ := ofLine_parses 3 "\"[\" [1]x".toList
  refine ⟨⟨(htokens _).mpr ⟨_, _, hparsed, rfl⟩, fun parts last h => ?_⟩, ?_⟩
  · obtain ⟨rfl, rfl⟩ := hunique _ _ _ _ h hparsed
    exact ⟨rfl, rfl⟩
  · exact ((ofLine_parses 3 _).2.2.2 _).mpr ⟨.lambda, rfl, hstuck⟩

/-! ## Gaps at the end -/

section

variable {cs rest gap text : List Char} {parts : List Part} {literal : OpenLiteral} {depth : Nat}

/-- A token is one before a longer gap. -/
theorem Lexeme.append_gap (h : Lexeme text rest) (hgap : ∀ c ∈ gap, isBlank c = true) :
    Lexeme text (rest ++ gap) := by
  cases h with
  | string h => exact .string h
  | array h => exact .array h
  | lambda h => exact .lambda h
  | bare hstring harray hlambda hblank hrest =>
    refine .bare hstring harray hlambda hblank ?_
    cases rest with
    | nil => exact fun c hc => hgap c (List.mem_of_head? hc)
    | cons c rest => exact hrest

/-- A gap goes to the rest behind the parts. -/
theorem Cut.append_gap (h : Cut cs parts rest) (hgap : ∀ c ∈ gap, isBlank c = true) :
    Cut (cs ++ gap) parts (rest ++ gap) := by
  induction h with
  | nil => exact .nil _
  | cons hpart htext _ ih =>
    rw [List.append_assoc _ _ gap]
    exact .cons hpart (htext.append_gap hgap) ih

/-- Brackets stay open through a gap. -/
theorem StaysOpen.append_gap (h : StaysOpen depth cs) (hgap : ∀ c ∈ gap, isBlank c = true) :
    StaysOpen depth (cs ++ gap) := by
  intro front hfront hbalances
  rcases List.prefix_or_prefix_of_prefix hfront (List.prefix_append cs gap) with hinitial | ⟨blanks, rfl⟩
  · exact h front hinitial hbalances
  · have hblanks : blanks <+: gap := (List.prefix_append_right_inj cs).mp hfront
    have hcount {c : Char} (hc : isBlank c = false) : blanks.count c = 0 := by
      rw [List.count_eq_zero]
      exact fun hmem => Text.not_mem_gap hgap hc (hblanks.subset hmem)
    have hopening : blanks.count '[' = 0 := hcount rfl
    have hclosing : blanks.count ']' = 0 := hcount rfl
    refine h cs List.prefix_rfl ?_
    simpa only [Balances, List.count_append, hopening, hclosing, Nat.add_zero] using hbalances

/-- A literal is left open by a gap. -/
theorem LeftOpen.append_gap (h : LeftOpen literal cs) (hgap : ∀ c ∈ gap, isBlank c = true) :
    LeftOpen literal (cs ++ gap) := by
  have hnotMem {c : Char} {cs : List Char} (hc : isBlank c = false) (h : c ∉ cs) : c ∉ cs ++ gap := by
    rw [List.mem_append, not_or]
    exact ⟨h, Text.not_mem_gap hgap hc⟩
  cases h with
  | string h => exact .string (hnotMem rfl h)
  | array h => exact .array (staysOpen_iff.mpr ((staysOpen_iff.mp h).append_gap hgap))
  | lambda h => exact .lambda (hnotMem rfl h)

/-- A gap at the end makes no difference to the tokens of a line, nor to a literal that it leaves open. -/
theorem scan_append_gap (hgap : ∀ c ∈ gap, isBlank c = true) (cs : List Char) : scan (cs ++ gap) = scan cs := by
  rcases exists_parsed_or_stuck cs with ⟨parts, last, hcut, hlast⟩ | ⟨literal, parts, gap', rest, hcut, hgap', hopen⟩
  · have hlonger : Parsed (cs ++ gap) parts (last ++ gap) :=
      ⟨hcut.append_gap hgap, fun c hc => (List.mem_append.mp hc).elim (hlast c) (hgap c)⟩
    rw [hlonger.scan_eq, Parsed.scan_eq ⟨hcut, hlast⟩]
  · have hlonger : Stuck literal (cs ++ gap) := by
      refine ⟨parts, gap', rest ++ gap, ?_, hgap', hopen.append_gap hgap⟩
      rw [← List.append_assoc]
      exact hcut.append_gap hgap
    rw [hlonger.scan_eq, Stuck.scan_eq ⟨parts, gap', rest, hcut, hgap', hopen⟩]

/-- Blanks at the ends of a line make no difference to its tokens. -/
theorem scan_trim (cs : List Char) : scan (Text.trim cs) = scan cs := by
  obtain ⟨gap, hgap, hcs, -⟩ := Text.exists_gap cs
  obtain ⟨gap', hgap', htrim⟩ := Text.exists_gap_at_end (Text.trimStart cs)
  calc scan (Text.trim cs) = scan (Text.trim cs ++ gap') := (scan_append_gap hgap' _).symm
    _ = scan (Text.trimStart cs) := by rw [Text.trim, ← htrim]
    _ = scan (gap ++ Text.trimStart cs) := (scan_gap_append hgap _).symm
    _ = scan cs := by rw [← hcs]

end

end StackLang.Token
