import StackLang.Proofs.DepthCounter
import StackLang.Proofs.Layout
import StackLang.Proofs.Scanning
import StackLang.Program

/-!
# The lines of failures

A program fails with the failure of its first token that fails. This failure is on the line where the token
stands in the source, even if it arises in an evaluation that is nested in the token's own: the token hands its line
down, and every step that can fail builds its failure on the line that it was given.
-/

namespace StackLang

/-- A failure on a line has this line. -/
theorem StackStep.line_of_onLine {α : Type} {x : StackStep α} {line : Nat} {s s' : Stack} {e : Located Cause}
    (h : x.onLine line s = .error e s') : e.line = line := by
  unfold onLine at h
  cases hx : x s with
  | ok a t =>
    rw [hx] at h
    cases h
  | error cause t =>
    rw [hx] at h
    cases h
    rfl

/-- A token hands its line down to everything that it does, so each of its failures is on this line. -/
theorem line_of_evalTokenAt {limit levels line : Nat} {text : String} {s s' : Stack} {e : Located Cause}
    (h : evalTokenAt limit (locatedLevelBelow? limit levels) line text s = .error e s') : e.line = line := by
  rw [evalTokenAt_eq] at h
  exact StackStep.line_of_onLine h

/-- Tokens fail as one of them does on the stack that the tokens before it leave. -/
theorem evalTokens_eq_error_iff {limit levels : Nat} {tokens : List Token} {s s' : Stack} {e : Located Cause} :
    evalTokens limit levels tokens s = .error e s' ↔
      ∃ i token t, tokens[i]? = some token ∧ evalTokens limit levels (tokens.take i) s = .ok () t ∧
        evalTokenAt limit (locatedLevelBelow? limit levels) token.line token.text t = .error e s' := by
  induction tokens generalizing s with
  | nil =>
    constructor
    · nofun
    · rintro ⟨i, token, t, hi, -⟩
      cases hi
  | cons first tokens ih =>
    cases hfirst : evalTokenAt limit (locatedLevelBelow? limit levels) first.line first.text s with
    | error cause t =>
      have hfails (rest : List Token) : evalTokens limit levels (first :: rest) s = .error cause t :=
        bind_of_error hfirst
      rw [hfails]
      constructor
      · intro h
        exact ⟨0, first, s, rfl, rfl, hfirst.trans h⟩
      · rintro ⟨i, token, t', hi, hbefore, htoken⟩
        -- No later token can be the one, because the first one would have to succeed before it.
        cases i with
        | zero =>
          cases hi
          cases hbefore
          rw [← hfirst, htoken]
        | succ i =>
          rw [List.take_succ_cons, hfails] at hbefore
          cases hbefore
    | ok _ t =>
      have hrest (rest : List Token) : evalTokens limit levels (first :: rest) s = evalTokens limit levels rest t :=
        bind_of_ok hfirst
      rw [hrest, ih]
      constructor
      · rintro ⟨i, token, t', hi, hbefore, htoken⟩
        refine ⟨i + 1, token, t', hi, ?_, htoken⟩
        rw [List.take_succ_cons, hrest, hbefore]
      · rintro ⟨i, token, t', hi, hbefore, htoken⟩
        cases i with
        | zero =>
          cases hi
          cases hbefore
          rw [hfirst] at htoken
          cases htoken
        | succ i =>
          rw [List.take_succ_cons, hrest] at hbefore
          exact ⟨i, token, t', hi, hbefore, htoken⟩

namespace Program

/-- From an empty stack the tokens before a position succeed and leave a stack, on which the token there fails
and leaves another one. -/
structure FailsAt (limits : Limits) (tokens : List Token) (i : Nat) (token : Token) (s : Stack)
    (e : Located Cause) (s' : Stack) : Prop where
  token_eq : tokens[i]? = some token
  before : evalTokens limits.depth limits.depth (tokens.take i) (Stack.empty limits.stackSize) = .ok () s
  fails : (Call.token token.text).run limits.depth token.line limits.depth s = .error e s'

/-- A program whose source is made of tokens fails as its tokens do. -/
theorem result_eq_eval_error_iff {source : String} {tokens : List Token}
    (htokens : Token.ofSource source = .ok tokens) {limits : Limits} {e : Located Cause} :
    result limits source = .error (.eval e) ↔
      ∃ s', evalTokens limits.depth limits.depth tokens (Stack.empty limits.stackSize) = .error e s' := by
  simp only [result, htokens]
  cases evalTokens limits.depth limits.depth tokens (Stack.empty limits.stackSize) <;> simp

/-- A program fails exactly if there is a token that is the first to fail, and with the failure of this token.
The failure is on the token's line, which the line feeds before the token in the source tell. An evaluator that
hands the line down to all nested evaluations reports the same. -/
theorem result_fails_on_line {source : String} {tokens : List Token}
    (htokens : Token.ofSource source = .ok tokens) (limits : Limits) (e : Located Cause) :
    (result limits source = .error (.eval e) ↔ ∃ i token s s', FailsAt limits tokens i token s e s') ∧
      ∀ i token s s', FailsAt limits tokens i token s e s' →
        e.line = token.line ∧
        (∃ before after, source.toList = before ++ token.text.toList ++ after ∧
          Token.Laid 1 (tokens.take i) before ∧ Token.Laid token.line (tokens.drop (i + 1)) after ∧
          token.line = 1 + before.count '\n') ∧
        ∀ fuel, limits.depth < fuel →
          Counted.withFuel limits.depth token.line fuel token.text ⟨s, 0⟩ = .error (.failed e) ⟨s', 0⟩ := by
  constructor
  · rw [result_eq_eval_error_iff htokens]
    simp only [evalTokens_eq_error_iff]
    constructor
    · rintro ⟨s', i, token, s, hi, hbefore, hfails⟩
      exact ⟨i, token, s, s', hi, hbefore, hfails⟩
    · rintro ⟨i, token, s, s', hi, hbefore, hfails⟩
      exact ⟨s', i, token, s, hi, hbefore, hfails⟩
  · intro i token s s' h
    refine ⟨line_of_evalTokenAt h.fails, (Token.laid_of_ofSource htokens).split h.token_eq, ?_⟩
    intro fuel hfuel
    have hcounted : Counted.withFuel limits.depth token.line fuel token.text ⟨s, 0⟩ =
        Counted.atDepth 0 ((Call.token token.text).run limits.depth token.line limits.depth s) :=
      Counted.follows_withFuel (Nat.zero_add limits.depth) hfuel token.line token.text s
    rw [hcounted, h.fails]
    rfl

/-- A sum that lacks an operand when it is forced fails on the line of the word that forces it. -/
theorem result_fails_on_line_forced :
    result {} "1\n\n'+\nEVAL" = .error (.eval ⟨4, .stackUnderflow 2 1⟩) ∧
      ∃ before after, "1\n\n'+\nEVAL".toList = before ++ "EVAL".toList ++ after ∧
        Token.Laid 1 [⟨"1", 1⟩, ⟨"'+", 3⟩] before ∧ 4 = 1 + before.count '\n' := by
  have hone : Token.scan ['1'] = .ok ["1"] := Token.scan_single (by decide) rfl
  have hempty : Token.scan [] = .ok [] := Token.scan_of_trimStart_nil rfl
  have hsum : Token.scan ['\'', '+'] = .ok ["'+"] := Token.scan_single (by decide) rfl
  have heval : Token.scan ['E', 'V', 'A', 'L'] = .ok ["EVAL"] := Token.scan_single (by decide) rfl
  have hlines : Text.lines "1\n\n'+\nEVAL".toList = [['1'], [], ['\'', '+'], ['E', 'V', 'A', 'L']] := rfl
  have htokens : Token.ofSource "1\n\n'+\nEVAL" = .ok [⟨"1", 1⟩, ⟨"'+", 3⟩, ⟨"EVAL", 4⟩] := by
    simp only [Token.ofSource, hlines, Token.ofLines, Token.ofLine, hone, hempty, hsum, heval]
    rfl
  obtain ⟨hiff, hline⟩ := result_fails_on_line htokens {} ⟨4, .stackUnderflow 2 1⟩
  have hfails : FailsAt {} [⟨"1", 1⟩, ⟨"'+", 3⟩, ⟨"EVAL", 4⟩] 2 ⟨"EVAL", 4⟩
      (Stack.ofList 65536 [.symbol "+", .integer 1]) ⟨4, .stackUnderflow 2 1⟩
      (Stack.ofList 65536 [.integer 1]) := ⟨rfl, rfl, rfl⟩
  obtain ⟨-, ⟨before, after, hsource, hbefore, -, hfeeds⟩, -⟩ := hline _ _ _ _ hfails
  exact ⟨hiff.mpr ⟨_, _, _, _, hfails⟩, before, after, hsource, hbefore, hfeeds⟩

end Program

end StackLang
