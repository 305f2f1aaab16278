import StackLang.Proofs.Texts
import StackLang.Token

/-!
# Where tokens stand

A source text is its tokens with gaps of blanks around them. Line ends belong to the gaps, and no token goes
over one, so a token's line is told by the line feeds before it.
-/

namespace StackLang.Token

open Text (isBlank)

/-- Whether a text can be a token: it does not start with a blank and stays on one line. -/
structure Solid (cs : List Char) : Prop where
  start : ∃ first rest, cs = first :: rest ∧ isBlank first = false
  single : '\n' ∉ cs

/-- Tokens in a text that starts on a given line. Each one stands behind a gap of blanks, on the line that the
line feeds in the gap lead to, and only blanks follow the last one. -/
inductive Laid : (line : Nat) → List Token → List Char → Prop
  | blanks {line : Nat} {gap : List Char} (hgap : ∀ c ∈ gap, isBlank c = true) : Laid line [] gap
  | token {line : Nat} {gap rest : List Char} {token : Token} {tokens : List Token}
      (hgap : ∀ c ∈ gap, isBlank c = true) (hsolid : Solid token.text.toList)
      (hline : token.line = line + gap.count '\n') (hrest : Laid token.line tokens rest) :
      Laid line (token :: tokens) (gap ++ token.text.toList ++ rest)

namespace Laid

variable {line : Nat} {tokens tokens' : List Token} {cs cs' : List Char}

/-- More blanks in front only move the tokens to later lines. -/
theorem after_blanks {gap : List Char} (hgap : ∀ c ∈ gap, isBlank c = true)
    (h : Laid (line + gap.count '\n') tokens cs) : Laid line tokens (gap ++ cs) := by
  have hjoin {gap' : List Char} (hgap' : ∀ c ∈ gap', isBlank c = true) : ∀ c ∈ gap ++ gap', isBlank c = true :=
    fun c hc => (List.mem_append.mp hc).elim (hgap c) (hgap' c)
  cases h with
  | blanks hgap' => exact .blanks (hjoin hgap')
  | token hgap' hsolid hline hrest =>
    have hmoved := Laid.token (hjoin hgap') hsolid (by rw [hline, List.count_append, Nat.add_assoc]) hrest
    simpa only [List.append_assoc] using hmoved

/-- Texts can be put one behind the other if the second one starts on the line that the first one ends on. -/
theorem append (h : Laid line tokens cs) (h' : Laid (line + cs.count '\n') tokens' cs') :
    Laid line (tokens ++ tokens') (cs ++ cs') := by
  induction h with
  | blanks hgap => exact h'.after_blanks hgap
  | token hgap hsolid hline hrest ih =>
    have hrest' := ih (by
      rw [hline]
      simpa only [List.count_append, List.count_eq_zero.mpr hsolid.single, Nat.add_zero, Nat.add_assoc] using h')
    simpa only [List.append_assoc, List.cons_append] using Laid.token hgap hsolid hline hrest'

/-- Before and after a token stand the tokens before and after it, and its line is told by the line feeds before
it. -/
theorem split (h : Laid line tokens cs) {i : Nat} {token : Token} (hi : tokens[i]? = some token) :
    ∃ before after, cs = before ++ token.text.toList ++ after ∧ Laid line (tokens.take i) before ∧
      Laid token.line (tokens.drop (i + 1)) after ∧ token.line = line + before.count '\n' := by
  induction h generalizing i with
  | blanks => cases hi
  | token hgap hsolid hline hrest ih =>
    rename_i line gap rest first tokens
    cases i with
    | zero =>
      cases hi
      exact ⟨gap, rest, rfl, .blanks hgap, hrest, hline⟩
    | succ i =>
      obtain ⟨before, after, rfl, hbefore, hafter, hfeeds⟩ := ih hi
      refine ⟨gap ++ first.text.toList ++ before, after, ?_, .token hgap hsolid hline hbefore, hafter, ?_⟩
      · simp only [List.append_assoc]
      · simp only [List.count_append, List.count_eq_zero.mpr hsolid.single]
        omega

/-- No token that stands in a text holds a line feed. -/
theorem single (h : Laid line tokens cs) : ∀ token ∈ tokens, '\n' ∉ token.text.toList := by
  induction h with
  | blanks => exact nofun
  | token _ hsolid _ _ ih => exact List.forall_mem_cons.mpr ⟨hsolid.single, ih⟩

end Laid

/-! ## Tokens of lines -/

/-- A token that is cut off behind a gap on its line. -/
theorem Laid.cut {line : Nat} {gap text rest : List Char} {tokens : List Token}
    (hgap : ∀ c ∈ gap, isBlank c = true) (hsolid : Solid text) (hfeed : '\n' ∉ gap)
    (hrest : Laid line tokens rest) :
    Laid line ({ text := String.ofList text, line } :: tokens) (gap ++ text ++ rest) := by
  have htext : (String.ofList text).toList = text := String.toList_ofList
  have hline : line = line + gap.count '\n' := by rw [List.count_eq_zero.mpr hfeed, Nat.add_zero]
  have hlaid : Laid line ({ text := String.ofList text, line } :: tokens)
      (gap ++ (String.ofList text).toList ++ rest) := .token hgap (by rwa [htext]) hline hrest
  rwa [htext] at hlaid

/-- The tokens of a line stand on it. -/
theorem laid_of_scan {cs : List Char} {texts : List String} (hscan : scan cs = .ok texts) (hfeed : '\n' ∉ cs)
    (line : Nat) : Laid line (texts.map fun text => { text, line }) cs := by
  fun_induction scan cs generalizing texts with
  | case1 cs htrim =>
    obtain ⟨gap, hgap, hcs, -⟩ := Text.exists_gap cs
    cases hscan
    rw [hcs, htrim, List.append_nil]
    exact .blanks hgap
  | case5 cs first rest htrim length hlength text tail hcut htail texts htexts ih =>
    obtain ⟨gap, hgap, hcs, hfirst⟩ := Text.exists_gap cs
    obtain ⟨front, rfl, -⟩ := exists_cons_of_cutAt htrim hlength hcut
    cases hscan
    -- The line is a gap, the token that is cut off and a rest, and none of the three holds a line feed.
    rw [htrim, (Text.of_cutAt hcut).1, ← List.append_assoc] at hcs
    simp only [hcs, List.mem_append, not_or] at hfeed
    obtain ⟨⟨hgapFeed, htextFeed⟩, htailFeed⟩ := hfeed
    have hsolid : Solid (first :: front) := ⟨⟨first, front, rfl, hfirst first rest htrim⟩, htextFeed⟩
    have hrest := ih htexts htailFeed
    rw [hcs, List.map_cons]
    exact hrest.cut hgap hsolid hgapFeed
  | _ => cases hscan

/-- The tokens of a line with a number stand on that line. -/
theorem laid_of_ofLine {line : Nat} {cs : List Char} {tokens : List Token} (h : ofLine line cs = .ok tokens)
    (hfeed : '\n' ∉ cs) : Laid line tokens cs := by
  unfold ofLine at h
  cases hscan : scan cs with
  | error cause =>
    rw [hscan] at h
    cases h
  | ok texts =>
    rw [hscan] at h
    cases h
    exact laid_of_scan hscan hfeed line

/-- Tokens of several lines are the tokens of the first line and those of the lines after it. -/
theorem ofLines_cons {line : Nat} {cs : List Char} {rest : List (List Char)} {tokens : List Token}
    (h : ofLines line (cs :: rest) = .ok tokens) :
    ∃ front back, ofLine line cs = .ok front ∧ ofLines (line + 1) rest = .ok back ∧ tokens = front ++ back := by
  rw [ofLines] at h
  cases hfront : ofLine line cs with
  | error e =>
    rw [hfront] at h
    cases h
  | ok front =>
    cases hback : ofLines (line + 1) rest with
    | error e =>
      rw [hfront, hback] at h
      cases h
    | ok back =>
      rw [hfront, hback] at h
      cases h
      exact ⟨front, back, rfl, rfl, rfl⟩

/-- The tokens in the pieces between line feeds stand in the text that the pieces make up. -/
theorem laid_of_pieces {line : Nat} {pieces : List (List Char)} {tokens : List Token}
    (h : ofLines line (Text.linesOfPieces pieces) = .ok tokens) (hfeed : ∀ piece ∈ pieces, '\n' ∉ piece) :
    Laid line tokens (['\n'].intercalate pieces) := by
  induction pieces generalizing line tokens with
  | nil =>
    cases h
    exact .blanks nofun
  | cons piece pieces ih =>
    have hpiece : '\n' ∉ piece := hfeed piece List.mem_cons_self
    cases pieces with
    | nil =>
      -- The last piece has no line end, and is a line only if it is not empty.
      rw [List.intercalate_singleton]
      cases piece with
      | nil =>
        cases h
        exact .blanks nofun
      | cons c cs =>
        obtain ⟨front, back, hfront, hback, rfl⟩ := ofLines_cons h
        cases hback
        rw [List.append_nil]
        exact laid_of_ofLine hfront hpiece
    | cons piece' pieces =>
      obtain ⟨front, back, hfront, hback, rfl⟩ := ofLines_cons h
      have hrest := ih hback fun p hp => hfeed p (List.mem_cons_of_mem piece hp)
      obtain ⟨gap, hgap, hend, hone⟩ := Text.exists_lineEnd piece
      -- The whole line end goes to the gap, a carriage return included, and counts as one line feed.
      have hdrop : '\n' ∉ Text.dropReturn piece := by
        have hcount := congrArg (List.count '\n') hend
        rw [List.count_append, List.count_append, hone, List.count_singleton_self] at hcount
        rw [← List.count_eq_zero] at hpiece ⊢
        omega
      have hfrontLaid := laid_of_ofLine hfront hdrop
      rw [List.intercalate_cons_cons, hend, List.append_assoc]
      apply hfrontLaid.append
      rw [List.count_eq_zero.mpr hdrop]
      apply Laid.after_blanks hgap
      rwa [hone]

/-- The tokens of a source stand in it, from the first line on. -/
theorem laid_of_ofSource {source : String} {tokens : List Token} (h : ofSource source = .ok tokens) :
    Laid 1 tokens source.toList := by
  have hlaid := laid_of_pieces h fun piece hpiece => Text.not_mem_of_mem_splitOn hpiece
  rwa [Text.splitOn_eq, List.intercalate_splitOn] at hlaid

end StackLang.Token
