import StackLang.Program
import StackLang.Proofs.Grammar
import StackLang.Proofs.Layout
import StackLang.Proofs.StackSteps

/-!
# Blanks between tokens

The grammar of a line takes a whole source apart as well, line ends being blanks, as long as no token goes over a
line end. The lines of the source are then cut into the same tokens one after another. So the blanks around tokens
can be chosen freely: tokens that touch each other can be set apart and lines can be broken or joined.

Evaluation does not see the lines of its tokens. A source whose tokens are spaced in another way has the same
values, or fails with the same cause, and only the line that it fails on can be another one.
-/

namespace StackLang

namespace Text

/-- An element of a list in two parts is in the first part or in the second one. -/
theorem append_eq_append_cons {α : Type} {as bs front rest : List α} {a : α} (h : as ++ bs = front ++ a :: rest) :
    (∃ back, as = front ++ a :: back ∧ rest = back ++ bs) ∨
      ∃ middle, front = as ++ middle ∧ bs = middle ++ a :: rest := by
  rcases List.append_eq_append_iff.mp h with ⟨middle, hfront, hbs⟩ | ⟨back, has, hback⟩
  · exact .inr ⟨middle, hfront, hbs⟩
  · cases back with
    | nil => exact .inr ⟨[], by simpa using has.symm, hback.symm⟩
    | cons c back =>
      obtain ⟨rfl, hrest⟩ := List.cons.inj hback
      exact .inl ⟨back, has, hrest⟩

/-- A line feed ends a line, and the lines behind it are those of the rest. -/
theorem lines_append_feed {front : List Char} (h : '\n' ∉ front) (rest : List Char) :
    lines (front ++ '\n' :: rest) = dropReturn front :: lines rest := by
  have hsplit : splitOn '\n' (front ++ '\n' :: rest) = front :: splitOn '\n' rest := by
    rw [splitOn_eq, splitOn_eq, List.splitOn_append_cons_self_of_not_mem h]
  rw [lines, hsplit, lines]
  cases hpieces : splitOn '\n' rest with
  | nil =>
    rw [splitOn_eq] at hpieces
    exact absurd hpieces (List.splitOn_ne_nil '\n' rest)
  | cons piece pieces => rfl

/-- A text without line feeds is one line, unless it is empty. -/
theorem lines_of_not_mem {cs : List Char} (h : '\n' ∉ cs) : lines cs = if cs.isEmpty then [] else [cs] := by
  rw [lines, splitOn_eq, List.splitOn_eq_singleton h]
  rfl

end Text

namespace Token

open Text (isBlank)

/-! ## Sources taken apart as a whole -/

section

variable {cs front rest text last : List Char} {parts : List Part}

/-- A token in front of a text is one in front of the beginning of that text. -/
theorem Lexeme.of_append (h : Lexeme text (front ++ rest)) : Lexeme text front := by
  cases h with
  | string h => exact .string h
  | array h => exact .array h
  | lambda h => exact .lambda h
  | bare hstring harray hlambda hblank hrest =>
    refine .bare hstring harray hlambda hblank ?_
    cases front with
    | nil => exact nofun
    | cons c front => exact hrest

/-- A token is one wherever it is followed by a blank or by nothing. -/
theorem Lexeme.of_blank {rest' : List Char} (h : Lexeme text rest) (hblank : ∀ c ∈ rest'.head?, isBlank c = true) :
    Lexeme text rest' := by
  cases h with
  | string h => exact .string h
  | array h => exact .array h
  | lambda h => exact .lambda h
  | bare hstring harray hlambda hword => exact .bare hstring harray hlambda hword hblank

/-- A text whose tokens hold no line feed can be taken apart before and behind any of its line feeds. -/
theorem Parsed.split_feed (h : Parsed (front ++ '\n' :: rest) parts last)
    (hparts : ∀ part ∈ parts, '\n' ∉ part.text) :
    ∃ before gap after last', Parsed front before gap ∧ Parsed rest after last' ∧
      parts.map Part.text = before.map Part.text ++ after.map Part.text := by
  obtain ⟨hcut, hlast⟩ := h
  generalize hwhole : front ++ '\n' :: rest = whole at hcut
  induction hcut generalizing front with
  | nil =>
    subst hwhole
    have hfront : ∀ c ∈ front, isBlank c = true := fun c hc => hlast c (List.mem_append_left _ hc)
    have hrest : ∀ c ∈ rest, isBlank c = true := fun c hc => hlast c (by simp [hc])
    exact ⟨[], front, [], rest, ⟨.nil _, hfront⟩, ⟨.nil _, hrest⟩, rfl⟩
  | @cons gap text cs last parts hgap htext hcut ih =>
    have hsingle : '\n' ∉ text := hparts ⟨gap, text⟩ List.mem_cons_self
    rw [List.append_assoc] at hwhole
    -- The line feed is in the gap before the first token, or behind this token.
    rcases Text.append_eq_append_cons hwhole.symm with ⟨gap', rfl, rfl⟩ | ⟨front, rfl, htail⟩
    · have hfront : ∀ c ∈ front, isBlank c = true := fun c hc => hgap c (List.mem_append_left _ hc)
      have hgap' : ∀ c ∈ gap', isBlank c = true := fun c hc => hgap c (by simp [hc])
      rw [← List.append_assoc]
      exact ⟨[], front, ⟨gap', text⟩ :: parts, last, ⟨.nil _, hfront⟩, ⟨.cons hgap' htext hcut, hlast⟩, rfl⟩
    · rcases Text.append_eq_append_cons htail with ⟨back, rfl, -⟩ | ⟨front, rfl, rfl⟩
      · exact absurd (by simp) hsingle
      · obtain ⟨before, gap', after, last', hbefore, hafter, htexts⟩ :=
          ih (fun part hpart => hparts part (List.mem_cons_of_mem _ hpart)) hlast rfl
        refine ⟨⟨gap, text⟩ :: before, gap', after, last', ⟨?_, hbefore.gap⟩, hafter, ?_⟩
        · rw [← List.append_assoc]
          exact .cons hgap htext.of_append hbefore.cut
        · rw [List.map_cons, htexts]
          rfl

/-- Tokens of several lines are the tokens of the first line and those of the lines after it. -/
theorem ofLines_cons_of_ok {line : Nat} {lines : List (List Char)} {front back : List Token}
    (hfront : ofLine line cs = .ok front) (hback : ofLines (line + 1) lines = .ok back) :
    ofLines line (cs :: lines) = .ok (front ++ back) := by
  rw [ofLines, hfront, hback]
  rfl

/-- The carriage return that belongs to a line end makes no difference to the tokens of a line. -/
theorem ofLine_dropReturn (line : Nat) (cs : List Char) : ofLine line (Text.dropReturn cs) = ofLine line cs := by
  obtain ⟨gap, hgap, hend, -⟩ := Text.exists_lineEnd cs
  have hfeed : ∀ c ∈ ['\n'], isBlank c = true := List.forall_mem_singleton.mpr rfl
  have hscan : scan (Text.dropReturn cs) = scan cs := by
    rw [← scan_append_gap hgap, ← hend, scan_append_gap hfeed]
  rw [ofLine, hscan, ofLine]

/-- A text that is taken apart into tokens without line feeds has these tokens, line by line. -/
theorem ofLines_of_parsed {cs last : List Char} {parts : List Part} (h : Parsed cs parts last)
    (hparts : ∀ part ∈ parts, '\n' ∉ part.text) (line : Nat) :
    ∃ tokens, ofLines line (Text.lines cs) = .ok tokens ∧
      tokens.map (fun token => token.text.toList) = parts.map Part.text := by
  have htexts (parts : List Part) (line : Nat) :
      (parts.map (Part.token line)).map (fun token => token.text.toList) = parts.map Part.text := by
    simp [Part.token]
  by_cases hfeed : '\n' ∈ cs
  · obtain ⟨front, rest, hcs, hfront⟩ := List.eq_append_cons_of_mem hfeed
    have hlength : rest.length < cs.length := by
      rw [hcs, List.length_append, List.length_cons]
      omega
    rw [hcs] at h
    obtain ⟨before, gap, after, last', hbefore, hafter, hsplit⟩ := h.split_feed hparts
    have hafterParts : ∀ part ∈ after, '\n' ∉ part.text := by
      intro part hpart
      have hmem : part.text ∈ parts.map Part.text := by
        rw [hsplit]
        exact List.mem_append_right _ (List.mem_map_of_mem hpart)
      obtain ⟨part', hpart', heq⟩ := List.mem_map.mp hmem
      rw [← heq]
      exact hparts part' hpart'
    obtain ⟨back, hback, hbackTexts⟩ := ofLines_of_parsed hafter hafterParts (line + 1)
    have hline : ofLine line (Text.dropReturn front) = .ok (before.map (Part.token line)) := by
      rw [ofLine_dropReturn, hbefore.ofLine_eq]
    refine ⟨before.map (Part.token line) ++ back, ?_, ?_⟩
    · rw [hcs, Text.lines_append_feed hfront]
      exact ofLines_cons_of_ok hline hback
    · rw [List.map_append, htexts, hbackTexts, hsplit]
  · rw [Text.lines_of_not_mem hfeed]
    cases cs with
    | nil =>
      have hblank : ∀ c ∈ ([] : List Char), isBlank c = true := fun c hc => absurd hc List.not_mem_nil
      obtain ⟨rfl, -⟩ := h.cut.eq_nil_of_blank hblank
      exact ⟨[], rfl, rfl⟩
    | cons c cs => exact ⟨_, ofLines_cons_of_ok (h.ofLine_eq line) rfl, by rw [List.append_nil, htexts]⟩
termination_by cs.length

/-! ## Spaced tokens -/

/-- Texts with a gap of blanks behind each of them. Only the last gap may be empty. -/
inductive Spaced : (texts : List String) → List Char → Prop
  | nil : Spaced [] []
  | cons {text : String} {texts : List String} {gap rest : List Char} (hgap : ∀ c ∈ gap, isBlank c = true)
      (hapart : texts ≠ [] → gap ≠ []) (hrest : Spaced texts rest) :
      Spaced (text :: texts) (text.toList ++ gap ++ rest)

/-- Tokens that are spaced behind a first gap are taken apart again. -/
theorem Spaced.parsed {texts : List String} {first : List Char} (h : Spaced texts cs)
    (hfirst : ∀ c ∈ first, isBlank c = true) (htexts : ∀ text ∈ texts, ∃ rest, Lexeme text.toList rest) :
    ∃ parts last, Parsed (first ++ cs) parts last ∧ parts.map Part.text = texts.map String.toList := by
  induction h generalizing first with
  | nil => exact ⟨[], first, ⟨by rw [List.append_nil]; exact .nil first, hfirst⟩, rfl⟩
  | @cons text texts gap rest hgap hapart hrest ih =>
    obtain ⟨parts, last, hparsed, hparts⟩ := ih hgap fun text' htext' => htexts text' (List.mem_cons_of_mem _ htext')
    obtain ⟨rest', hlexeme⟩ := htexts text List.mem_cons_self
    have hblank : ∀ c ∈ (gap ++ rest).head?, isBlank c = true := by
      cases gap with
      | cons c gap => exact fun c' hc' => hgap c' (List.mem_of_head? hc')
      | nil =>
        -- Nothing follows an empty gap, because it is behind the last token.
        cases hrest with
        | nil => exact nofun
        | cons => exact absurd rfl (hapart (List.cons_ne_nil _ _))
    refine ⟨⟨first, text.toList⟩ :: parts, last, ⟨?_, hparsed.gap⟩, by rw [List.map_cons, hparts, List.map_cons]⟩
    have hcut := Cut.cons hfirst (hlexeme.of_blank hblank) hparsed.cut
    simpa only [List.append_assoc] using hcut

/-- The parts of a text that is cut are tokens in front of what follows them. -/
theorem Cut.lexeme (h : Cut cs parts rest) : ∀ part ∈ parts, ∃ rest', Lexeme part.text rest' := by
  induction h with
  | nil => exact nofun
  | cons _ htext _ ih => exact List.forall_mem_cons.mpr ⟨⟨_, htext⟩, ih⟩

/-- The tokens of lines have texts that the grammar allows. -/
theorem lexeme_of_ofLines {line : Nat} {lines : List (List Char)} {tokens : List Token}
    (h : ofLines line lines = .ok tokens) : ∀ token ∈ tokens, ∃ rest, Lexeme token.text.toList rest := by
  induction lines generalizing line tokens with
  | nil =>
    cases h
    exact nofun
  | cons cs lines ih =>
    obtain ⟨front, back, hfront, hback, rfl⟩ := ofLines_cons h
    rcases exists_parsed_or_stuck cs with ⟨parts, last, hparsed⟩ | ⟨literal, hstuck⟩
    · rw [hparsed.ofLine_eq, Except.ok.injEq] at hfront
      subst hfront
      intro token htoken
      rcases List.mem_append.mp htoken with hfront | hback'
      · obtain ⟨part, hpart, rfl⟩ := List.mem_map.mp hfront
        simpa [Part.token] using hparsed.cut.lexeme part hpart
      · exact ih hback token hback'
    · rw [ofLine, hstuck.scan_eq] at hfront
      cases hfront

end

/-- The tokens of a source can be spaced in any other way, and stay the same tokens. -/
theorem ofSource_of_spaced {source : String} {tokens : List Token} (h : ofSource source = .ok tokens)
    {first cs : List Char} (hfirst : ∀ c ∈ first, isBlank c = true) (hspaced : Spaced (tokens.map Token.text) cs) :
    ∃ tokens', ofSource (String.ofList (first ++ cs)) = .ok tokens' ∧
      tokens'.map Token.text = tokens.map Token.text := by
  have hlexeme : ∀ text ∈ tokens.map Token.text, ∃ rest, Lexeme text.toList rest := by
    intro text htext
    obtain ⟨token, htoken, rfl⟩ := List.mem_map.mp htext
    exact lexeme_of_ofLines h token htoken
  obtain ⟨parts, last, hparsed, hparts⟩ := hspaced.parsed hfirst hlexeme
  have hsingle : ∀ part ∈ parts, '\n' ∉ part.text := by
    intro part hpart
    have hmem : part.text ∈ (tokens.map Token.text).map String.toList := by
      rw [← hparts]
      exact List.mem_map_of_mem hpart
    simp only [List.map_map, List.mem_map] at hmem
    obtain ⟨token, htoken, heq⟩ := hmem
    rw [← heq]
    exact (laid_of_ofSource h).single token htoken
  obtain ⟨tokens', htokens', htexts⟩ := ofLines_of_parsed hparsed hsingle 1
  refine ⟨tokens', by rwa [ofSource, String.toList_ofList], ?_⟩
  apply (List.map_inj_right fun _ _ => String.toList_inj.mp).mp
  rw [← hparts, ← htexts, List.map_map]
  rfl

end Token

/-! ## Outcomes -/

/-- Tokens with the same texts have the same outcome, except for the line of a failure. -/
theorem evalTokens_of_map_text_eq {tokens tokens' : List Token}
    (h : tokens'.map Token.text = tokens.map Token.text) (limit levels : Nat) (s : Stack) :
    match evalTokens limit levels tokens s with
    | .ok _ s' => evalTokens limit levels tokens' s = .ok () s'
    | .error e s' => ∃ line, evalTokens limit levels tokens' s = .error { e with line } s' := by
  induction tokens generalizing tokens' s with
  | nil =>
    obtain rfl : tokens' = [] := List.map_eq_nil_iff.mp h
    rfl
  | cons token tokens ih =>
    obtain ⟨token', tokens', rfl, htext, htexts⟩ := List.map_eq_cons_iff.mp h
    cases hs : evalToken limit (levelBelow? limit levels) token.text s with
    | ok _ s' =>
      rw [evalTokens_cons_of_ok hs, evalTokens_cons_of_ok (htext ▸ hs)]
      exact ih htexts s'
    | error cause s' =>
      rw [evalTokens_cons_of_error hs, evalTokens_cons_of_error (htext ▸ hs)]
      exact ⟨token'.line, rfl⟩

/-- Only the body of a lambda that cannot be read makes a line appear in the details of a message. -/
theorem Cause.message_eq_onLine (cause : Cause) :
    (∃ literal kind, cause = .malformedLiteral literal (.unreadableBody kind)) ∨
      ∃ text, ∀ line, cause.message line = onLine line text := by
  cases cause with
  | malformedLiteral literal malformation =>
    have hdetails : (∃ kind, malformation = .unreadableBody kind) ∨
        ∀ line, malformation.text line = malformation.text 1 := by
      cases malformation with
      | unreadableBody kind => exact .inl ⟨kind, rfl⟩
      | _ => exact .inr fun _ => rfl
    rcases hdetails with ⟨kind, rfl⟩ | hdetails
    · exact .inl ⟨literal, kind, rfl⟩
    · refine .inr ⟨"Malformed literal '" ++ literal ++ "': " ++ malformation.text 1 ++ ".", fun line => ?_⟩
      rw [message, hdetails line]
      rfl
  | _ => exact .inr ⟨_, fun _ => rfl⟩

/-- The blanks around the tokens of a source make no difference. A source with the same tokens in another spacing is
cut into the same texts. It has the same values under all limits, or fails with the same cause; the line can be
another one, and no other part of the message depends on it, except for the line that the details of an unreadable
lambda quote. -/
theorem Program.result_of_spaced {source : String} {tokens : List Token}
    (htokens : Token.ofSource source = .ok tokens) {first cs : List Char}
    (hfirst : ∀ c ∈ first, Text.isBlank c = true) (hspaced : Token.Spaced (tokens.map Token.text) cs) :
    (∃ tokens', Token.ofSource (String.ofList (first ++ cs)) = .ok tokens' ∧
      tokens'.map Token.text = tokens.map Token.text) ∧
    ∀ limits,
      (∃ values, result limits source = .ok values ∧ result limits (String.ofList (first ++ cs)) = .ok values) ∨
      ∃ cause line line', result limits source = .error (.eval ⟨line, cause⟩) ∧
        result limits (String.ofList (first ++ cs)) = .error (.eval ⟨line', cause⟩) ∧
        ((∃ literal kind, cause = .malformedLiteral literal (.unreadableBody kind)) ∨
          ∃ text, cause.message line = onLine line text ∧ cause.message line' = onLine line' text) := by
  obtain ⟨tokens', htokens', htexts⟩ := Token.ofSource_of_spaced htokens hfirst hspaced
  refine ⟨⟨tokens', htokens', htexts⟩, fun limits => ?_⟩
  have hout := evalTokens_of_map_text_eq htexts limits.depth limits.depth (Stack.empty limits.stackSize)
  simp only [result, htokens, htokens']
  cases hs : evalTokens limits.depth limits.depth tokens (Stack.empty limits.stackSize) with
  | ok _ s =>
    rw [hs] at hout
    simp only [hout]
    exact .inl ⟨s.toList, rfl, rfl⟩
  | error e s =>
    rw [hs] at hout
    obtain ⟨line', hs'⟩ := hout
    simp only [hs']
    refine .inr ⟨e.cause, e.line, line', rfl, rfl, ?_⟩
    exact e.cause.message_eq_onLine.imp_right fun ⟨text, htext⟩ => ⟨text, htext e.line, htext line'⟩

/-- Two strings that touch each other are set apart by a line end. Their difference fails for the same reason,
whichever line it is on. -/
theorem Program.result_of_spaced_broken :
    result {} "\"a\"\"b\" -" = .error (.eval ⟨1, .typeMismatch (.operands .sub .string .string)⟩) ∧
      ∃ line, result {} "\t\"a\"\r\n\"b\"\n\n-" =
        .error (.eval ⟨line, .typeMismatch (.operands .sub .string .string)⟩) := by
  have hgap (gap : List Char) (h : gap.all Text.isBlank = true) : ∀ c ∈ gap, Text.isBlank c = true :=
    List.all_eq_true.mp h
  have htokens : Token.ofSource "\"a\"\"b\" -" = .ok [⟨"\"a\"", 1⟩, ⟨"\"b\"", 1⟩, ⟨"-", 1⟩] := by
    have hinside (c : Char) (h : '"' ≠ c) : '"' ∉ [c] := by simpa using h
    have hfirst : Token.Lexeme ['"', 'a', '"'] ['"', 'b', '"', ' ', '-'] := .string (hinside 'a' (by decide))
    have hsecond : Token.Lexeme ['"', 'b', '"'] [' ', '-'] := .string (hinside 'b' (by decide))
    have hsign : Token.scan [' ', '-'] = .ok ["-"] :=
      (Token.scan_gap_append (hgap [' '] rfl) ['-']).trans (Token.scan_single rfl rfl)
    have hscan : Token.scan "\"a\"\"b\" -".toList = .ok ["\"a\"", "\"b\"", "-"] := by
      rw [hfirst.scan_eq rfl, hsecond.scan_eq rfl, hsign]
      rfl
    have hlines : Text.lines "\"a\"\"b\" -".toList = ["\"a\"\"b\" -".toList] := rfl
    simp only [Token.ofSource, hlines, Token.ofLines, Token.ofLine, hscan]
    rfl
  have hfails : result {} "\"a\"\"b\" -" =
      .error (.eval ⟨1, .typeMismatch (.operands .sub .string .string)⟩) := by
    rw [result, htokens]
    rfl
  have hspaced : Token.Spaced ["\"a\"", "\"b\"", "-"] "\"a\"\r\n\"b\"\n\n-".toList :=
    .cons (hgap ['\r', '\n'] rfl) (fun _ => List.cons_ne_nil _ _)
      (.cons (hgap ['\n', '\n'] rfl) (fun _ => List.cons_ne_nil _ _)
        (.cons (hgap [] rfl) (fun h => absurd rfl h) .nil))
  obtain ⟨-, hresult⟩ := result_of_spaced htokens (hgap ['\t'] rfl) hspaced
  refine ⟨hfails, ?_⟩
  rcases hresult {} with ⟨values, hvalues, -⟩ | ⟨cause, line, line', hcause, hmoved, -⟩
  · rw [hfails] at hvalues
    cases hvalues
  · rw [hfails] at hcause
    cases hcause
    exact ⟨line', hmoved⟩

end StackLang
