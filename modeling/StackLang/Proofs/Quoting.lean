import StackLang.Proofs.ReadBack
import StackLang.Proofs.Simulation

/-!
# Quoting and forcing

A limit on nesting shows in an outcome only as the number that is reported where it is reached. With the same
levels left, a run under a higher limit has the same outcome up to this number.

A token that is quoted, or put between quotation marks, and then forced is therefore the token itself, if the
limit is higher by the one level that forcing takes.
-/

namespace StackLang

/-- A cause as it is reported under a limit on nesting that is higher by `more`. -/
def Cause.withLevels (more : Nat) : Cause → Cause
  | recursionLimit limit => recursionLimit (limit + more)
  | cause => cause

/-- An outcome as it is reported under a limit on nesting that is higher by `more`. -/
def Outcome.withLevels (more : Nat) :
    EStateM.Result (Located Cause) Stack Unit → EStateM.Result (Located Cause) Stack Unit
  | .ok a s => .ok a s
  | .error e s => .error { e with cause := e.cause.withLevels more } s

/-- The comparison of a run with the same run under a higher limit. -/
def Simulation.raising (more : Nat) : Simulation where
  below := []
  Fits _ capacity capacity' := capacity' = capacity
  values := .all
  Excuses _ := False
  Matches _ cause cause' := cause' = cause.withLevels more
  fits_of_le _ h := h
  fits_succ hroom h := ⟨h ▸ hroom, h⟩
  full {s t} hst hfull := by
    refine .inr ⟨?_, congrArg Cause.stackOverflow hst.fits⟩
    rw [hst.fits, hst.size]
    exact Nat.le_add_right_of_le hfull
  short := .inr ⟨rfl, fun _ _ _ => rfl⟩
  ordinary {cause} _ h := by
    cases cause with
    | recursionLimit limit => cases h
    | _ => rfl

/-- With the same levels left, a higher limit on nesting makes a difference to nothing but its report. -/
theorem evalTokens_raise (limit more levels : Nat) (tokens : List Token) (s : Stack) :
    evalTokens (limit + more) levels tokens s = Outcome.withLevels more (evalTokens limit levels tokens s) := by
  have hdepths : (Simulation.raising more).DepthsAgree limit levels (limit + more) levels :=
    .inr ⟨rfl, fun _ => rfl⟩
  have hself : (Simulation.raising more).Stacks s s := ⟨(List.append_nil _).symm, rfl, fun _ _ => trivial⟩
  have heq {s t : Stack} (h : (Simulation.raising more).Stacks s t) : t = s :=
    Stack.ext h.fits (h.values.trans (List.append_nil _))
  have hout := Simulation.evalTokens_outcomes hdepths tokens hself
  cases hrun : evalTokens limit levels tokens s with
  | ok _ s' =>
    rw [hrun] at hout
    obtain ⟨t, ht, hst⟩ := hout
    rw [ht, heq hst]
    rfl
  | error e s' =>
    rw [hrun] at hout
    rcases hout with hexcused | ⟨cause, t, ht, hmatch, hst⟩
    · exact hexcused.elim
    · rw [ht, heq hst, hmatch]
      rfl

/-! ## Forcing -/

/-- A value that was put on top is taken off again. -/
theorem Stack.pop_cons (v : Value) (s : Stack) : pop (s.cons v) = .ok v s := by
  rw [pop_apply]
  rfl

/-- Evaluation of one token is evaluation of the token. -/
theorem evalTokens_singleton (limit levels : Nat) (token : Token) :
    evalTokens limit levels [token] =
      (evalToken limit (levelBelow? limit levels) token.text).onLine token.line := by
  simp [evalTokens_eq, List.forM]

/-- The word for forcing is evaluated by forcing the top value. -/
theorem evalToken_eval (limit : Nat) (below? : Option Level) : evalToken limit below? "EVAL" = evalTop limit below? :=
  rfl

/-- Forcing a text that was put on top is evaluating it one level deeper. -/
theorem evalTokens_eval_cons {v : Value} {text : String} (hv : v = .symbol text ∨ v = .string text)
    (limit levels line : Nat) (s : Stack) :
    evalTokens limit (levels + 1) [⟨"EVAL", line⟩] (s.cons v) = evalTokens limit levels [⟨text, line⟩] s := by
  have hforce : evalTop limit (levelBelow? limit (levels + 1)) (s.cons v) =
      evalToken limit (levelBelow? limit levels) text s := by
    rw [evalTop, bind_of_ok (Stack.pop_cons v s)]
    rcases hv with rfl | rfl <;> rfl
  simp only [evalTokens_singleton, StackStep.onLine, evalToken_eval, hforce]

/-- A value that is neither a text nor a lambda is forced to itself, if there is room for it. -/
theorem evalTokens_eval_integer (limit levels line : Nat) (n : Integer) {s : Stack} (hroom : s.size < s.capacity) :
    evalTokens limit levels [⟨"EVAL", line⟩] (s.cons (.integer n)) = .ok () (s.cons (.integer n)) := by
  have hforce : evalTop limit (levelBelow? limit levels) (s.cons (.integer n)) = .ok () (s.cons (.integer n)) := by
    rw [evalTop, bind_of_ok (Stack.pop_cons _ s)]
    change Stack.push (.integer n) s = _
    rw [Stack.push_apply, if_neg (by omega)]
  simp only [evalTokens_singleton, StackStep.onLine, evalToken_eval, hforce]

/-! ## Quoting -/

section

variable {text : String} {limit levels line : Nat} {below? : Option Level} {s : Stack}

/-- An integer is read and put on the stack. -/
theorem evalToken_of_isInteger (h : Word.isInteger text.toList = true) :
    evalToken limit below? text =
      StackStep.lift (Literal.readInteger text.toList) >>= fun n => Stack.push (.integer n) := by
  unfold evalToken
  generalize text.toList = cs at h
  split
  · cases h
  · cases h
  · cases h
  · have hword : Word.ofChars? cs = some .integer := by simpa [Word.isInteger] using h
    rw [hword]
    rfl

/-- A quotation mark before an integer makes no difference. -/
theorem evalToken_quoted_of_isInteger (h : Word.isInteger text.toList = true) :
    evalToken limit below? ("'" ++ text) = evalToken limit below? text := by
  have htext : ("'" ++ text).toList = '\'' :: text.toList := by simp
  rw [evalToken_of_isInteger h]
  simp only [evalToken, htext, h, if_true]

/-- A quotation mark before any other text makes it a symbol. -/
theorem evalToken_quoted (h : Word.isInteger text.toList = false) :
    evalToken limit below? ("'" ++ text) = Stack.push (.symbol text) := by
  have htext : ("'" ++ text).toList = '\'' :: text.toList := by simp
  simp [evalToken, htext, h]

/-- A token that puts a text on the stack, followed by forcing, is the text one level deeper. -/
theorem evalTokens_push_eval {quoted : String} {v : Value} (hv : v = .symbol text ∨ v = .string text)
    (hquoted : evalToken limit (levelBelow? limit (levels + 1)) quoted = Stack.push v)
    (hroom : s.size < s.capacity) :
    evalTokens limit (levels + 1) [⟨quoted, line⟩, ⟨"EVAL", line⟩] s =
      evalTokens limit levels [⟨text, line⟩] s := by
  have hpush : evalToken limit (levelBelow? limit (levels + 1)) (Token.mk quoted line).text s =
      .ok () (s.cons v) := by
    rw [hquoted, Stack.push_apply, if_neg (by omega)]
  exact (evalTokens_cons_of_ok hpush _).trans (evalTokens_eval_cons hv limit levels line s)

/-- A quoted token that is forced is the token one level deeper. -/
theorem evalTokens_quoted_eval_eq (hroom : s.size < s.capacity) :
    evalTokens limit (levels + 1) [⟨"'" ++ text, line⟩, ⟨"EVAL", line⟩] s =
      evalTokens limit levels [⟨text, line⟩] s := by
  cases hinteger : Word.isInteger text.toList with
  | false => exact evalTokens_push_eval (.inl rfl) (evalToken_quoted hinteger) hroom
  | true =>
    -- An integer does not become a symbol, so nothing is evaluated on the level below.
    have hquoted : evalToken limit (levelBelow? limit (levels + 1)) (Token.mk ("'" ++ text) line).text =
        evalToken limit (levelBelow? limit (levels + 1)) text := evalToken_quoted_of_isInteger hinteger
    cases hread : Literal.readInteger text.toList with
    | error cause =>
      have hfails (levels : Nat) :
          evalToken limit (levelBelow? limit levels) (Token.mk text line).text s = .error cause s := by
        rw [evalToken_of_isInteger hinteger, hread]
        rfl
      have hfirst := evalTokens_cons_of_error ((congrFun hquoted s).trans (hfails _)) [⟨"EVAL", line⟩]
      exact hfirst.trans (evalTokens_cons_of_error (hfails levels) []).symm
    | ok n =>
      have hpush (levels : Nat) :
          evalToken limit (levelBelow? limit levels) (Token.mk text line).text s = .ok () (s.cons (.integer n)) := by
        rw [evalToken_of_isInteger hinteger, hread]
        change Stack.push (.integer n) s = _
        rw [Stack.push_apply, if_neg (by omega)]
      have hfirst := evalTokens_cons_of_ok ((congrFun hquoted s).trans (hpush _)) [⟨"EVAL", line⟩]
      have hforced := evalTokens_eval_integer limit (levels + 1) line n hroom
      exact (hfirst.trans hforced).trans (evalTokens_cons_of_ok (hpush levels) []).symm

/-- A token between quotation marks that is forced is the token one level deeper. -/
theorem evalTokens_string_eval_eq (hroom : s.size < s.capacity) :
    evalTokens limit (levels + 1) [⟨"\"" ++ text ++ "\"", line⟩, ⟨"EVAL", line⟩] s =
      evalTokens limit levels [⟨text, line⟩] s :=
  evalTokens_push_eval (.inr rfl) (evalToken_stringText text limit _) hroom

end

/-- On a stack with room for one more value, a token that is quoted and then forced has the outcome that it has
by itself under a limit on nesting that is lower by one, except that the limit is reported as it is. The same
holds of a token between quotation marks that is forced. -/
theorem evalTokens_quoted_eval (limit levels line : Nat) (text : String) {s : Stack}
    (hroom : s.size < s.capacity) :
    evalTokens (limit + 1) (levels + 1) [⟨"'" ++ text, line⟩, ⟨"EVAL", line⟩] s =
        Outcome.withLevels 1 (evalTokens limit levels [⟨text, line⟩] s) ∧
      evalTokens (limit + 1) (levels + 1) [⟨"\"" ++ text ++ "\"", line⟩, ⟨"EVAL", line⟩] s =
        Outcome.withLevels 1 (evalTokens limit levels [⟨text, line⟩] s) := by
  rw [evalTokens_quoted_eval_eq hroom, evalTokens_string_eval_eq hroom, evalTokens_raise]
  exact ⟨rfl, rfl⟩

/-- Forcing can itself be quoted. It then runs into a limit of one where it runs into a limit of zero by itself, and
has taken the same value off the stack. -/
theorem evalTokens_quoted_eval_limit :
    let s := Stack.ofList 3 [.symbol "DUP", .integer 7]
    s.size < s.capacity ∧
      evalTokens 0 0 [⟨"EVAL", 5⟩] s = .error ⟨5, .recursionLimit 0⟩ (.ofList 3 [.integer 7]) ∧
      evalTokens 1 1 [⟨"'EVAL", 5⟩, ⟨"EVAL", 5⟩] s = .error ⟨5, .recursionLimit 1⟩ (.ofList 3 [.integer 7]) ∧
      evalTokens 1 1 [⟨"\"EVAL\"", 5⟩, ⟨"EVAL", 5⟩] s = .error ⟨5, .recursionLimit 1⟩ (.ofList 3 [.integer 7]) := by
  intro s
  have hroom : s.size < s.capacity := by decide
  have hdirect : evalTokens 0 0 [⟨"EVAL", 5⟩] s = .error ⟨5, .recursionLimit 0⟩ (.ofList 3 [.integer 7]) := rfl
  obtain ⟨hquoted, hstring⟩ := evalTokens_quoted_eval 0 0 5 "EVAL" hroom
  rw [hdirect] at hquoted hstring
  exact ⟨hroom, hdirect, hquoted, hstring⟩

end StackLang
