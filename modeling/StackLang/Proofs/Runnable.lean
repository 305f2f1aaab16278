import StackLang.Proofs.Invocation
import StackLang.Proofs.ResultKinds

/-!
# Lambdas that are values

A lambda becomes a value only by its own body, once the body is being evaluated. Its text has then been read, and
since values are copied and moved as they are, the text of every lambda on the stack can be read again.

This holds between tokens and also at every moment inside of them, for the stack and for what the parameters of a
lambda stand for. Forcing a lambda therefore never fails on its text. It makes no difference that one way of forcing
looks at the first character and the other one does not.
-/

namespace StackLang

open Literal (readLambda parameterIndex?)

/-! ## Results that are no lambdas -/

/-- Whether a value is a lambda. -/
def Value.isLambda : Value → Bool
  | lambda _ => true
  | _ => false

/-- Plain values are no lambdas. -/
theorem Value.isLambda_of_isPlain {v : Value} (h : v.isPlain = true) : v.isLambda = false := by
  cases v with
  | lambda literal => cases h
  | _ => rfl

/-- Values that carry no text are no lambdas. -/
theorem Value.isLambda_of_isText {v : Value} (h : v.isText = false) : v.isLambda = false := by
  cases v with
  | lambda literal => cases h
  | _ => rfl

/-- Binary operators give no lambdas. -/
theorem BinaryOp.apply_isLambda (op : BinaryOp) (left right : Value) :
    Yields (fun v => v.isLambda = false) (op.apply left right) := by
  refine (op.apply_joins left right).mono fun v hv => ?_
  rcases hv with htext | ⟨a, b, -, -, rfl⟩
  · exact Value.isLambda_of_isText htext
  · rfl

/-- Array literals are no lambdas. -/
theorem Literal.readArray_isLambda (literal : List Char) :
    Yields (fun v => v.isLambda = false) (readArray literal) :=
  (readArray_isText literal).mono fun _ => Value.isLambda_of_isText

/-! ## Lambdas that can be read -/

/-- Whether a value that is a lambda has a text that can be read. -/
def Value.Runnable : Value → Prop
  | lambda literal => ∃ parts words, Literal.Reads literal parts words
  | _ => True

/-- A value that is no lambda has nothing to be read. -/
theorem Value.runnable_of_isLambda {v : Value} (h : v.isLambda = false) : v.Runnable := by
  cases v with
  | lambda literal => cases h
  | _ => trivial

/-- The class of values without unreadable lambdas. -/
def ValueClass.runnable : ValueClass where
  Holds := Value.Runnable
  plain h := Value.runnable_of_isLambda (Value.isLambda_of_isPlain h)
  array {literal v} h := Value.runnable_of_isLambda (Literal.readArray_isLambda literal v h)
  binary {op left right v} _ _ h := Value.runnable_of_isLambda (op.apply_isLambda left right v h)
  transpose _ := trivial
  lambda hbrace hparts hwords := ⟨_, _, hbrace, hparts, Literal.readBody_eq_ok_iff.mp hwords⟩

/-! ## Moments of an evaluation -/

/-- The lambda whose words are being evaluated, and the values that its parameters stand for. -/
structure Frame where
  literal : String
  arguments : List Value

/-- A moment of an evaluation: how many levels are left, the lambda whose words are being evaluated, if there is one,
and the stack. -/
structure Moment where
  levels : Nat
  frame? : Option Frame
  stack : Stack

namespace Moment

/-- The moments that an evaluation of tokens goes through, from an empty stack on. -/
inductive Reached (limits : Limits) : Moment → Prop
  /-- Any number of tokens have been evaluated, and those that have failed have been passed over. -/
  | tokens (tokens : List Token) :
    Reached limits ⟨limits.depth, none, ((Machine.new limits).afterTokens tokens).stack⟩
  /-- A text has been taken off the stack and is about to be evaluated. -/
  | forced {levels : Nat} {frame? : Option Frame} {s s' : Stack} {v : Value} {text : String} :
    Reached limits ⟨levels + 1, frame?, s⟩ → Stack.pop s = .ok v s' → v = .symbol text ∨ v = .string text →
      Reached limits ⟨levels, none, s'⟩
  /-- The text that a parameter stands for is about to be evaluated. -/
  | bound {levels : Nat} {frame : Frame} {s : Stack} :
    Reached limits ⟨levels + 1, some frame, s⟩ → Reached limits ⟨levels, none, s⟩
  /-- A lambda literal is a token, and has taken its arguments off the stack. -/
  | invoked {levels : Nat} {frame? : Option Frame} {s s' : Stack} {literal : String} {lambda : Literal.Lambda}
      {words : List String} {arguments : List Value} :
    Reached limits ⟨levels + 1, frame?, s⟩ → Literal.Reads literal lambda words →
      Stack.popN lambda.arity s = .ok arguments s' → Reached limits ⟨levels, some ⟨literal, arguments⟩, s'⟩
  /-- A lambda has been taken off the stack, and then its arguments. -/
  | applied {levels : Nat} {frame? : Option Frame} {s s' s'' : Stack} {literal : String} {lambda : Literal.Lambda}
      {arguments : List Value} :
    Reached limits ⟨levels + 1, frame?, s⟩ → Stack.pop s = .ok (.lambda literal) s' →
      readLambda literal.toList = .ok lambda → Stack.popN lambda.arity s' = .ok arguments s'' →
        Reached limits ⟨levels, some ⟨literal, arguments⟩, s''⟩
  /-- A word of a lambda's body has been evaluated. -/
  | word {levels : Nat} {frame : Frame} {level : Level} {s s' : Stack} (word : String) :
    Reached limits ⟨levels, some frame, s⟩ → levelBelow? limits.depth (levels + 1) = some level →
      lambdaWord level frame.literal frame.arguments word s = .ok () s' → Reached limits ⟨levels, some frame, s'⟩

/-- Whether all values of a moment are in a class: those on the stack, the lambda whose words are being evaluated, and
its arguments. -/
structure Within (values : ValueClass) (moment : Moment) : Prop where
  stack : moment.stack.Within values
  literal : ∀ frame ∈ moment.frame?, values.Holds (.lambda frame.literal)
  arguments : ∀ frame ∈ moment.frame?, ∀ v ∈ frame.arguments, values.Holds v

/-- Outside of lambdas only the stack counts. -/
theorem within_of_stack {values : ValueClass} {s : Stack} (h : s.Within values) (levels : Nat) :
    Within values ⟨levels, none, s⟩ where
  stack := h
  literal := nofun
  arguments := nofun

/-- A lambda that is in the class and takes its arguments off the stack leads to values of the class. -/
theorem within_of_popN {values : ValueClass} {s s' : Stack} {literal : String} {arity : Nat} {arguments : List Value}
    (h : s.Within values) (hliteral : values.Holds (.lambda literal))
    (hpop : Stack.popN arity s = .ok arguments s') (levels : Nat) :
    Within values ⟨levels, some ⟨literal, arguments⟩, s'⟩ := by
  obtain ⟨harguments, hstack⟩ := Simulation.within_of_agree (Simulation.agree_popN arity) h hpop
  refine ⟨hstack, ?_, ?_⟩
  · rintro _ ⟨⟩
    exact hliteral
  · rintro _ ⟨⟩
    exact harguments

/-- At every moment that is reached all lambdas can be read. -/
theorem Reached.within {limits : Limits} {moment : Moment} (h : moment.Reached limits) :
    moment.Within .runnable := by
  induction h with
  | tokens tokens =>
    have hempty : (Machine.new limits).stack.Within .runnable := nofun
    exact within_of_stack (Machine.within_afterTokens hempty tokens) limits.depth
  | forced _ hpop _ ih => exact within_of_stack (Simulation.within_of_agree Simulation.agree_pop ih.stack hpop).2 _
  | bound _ ih => exact within_of_stack ih.stack _
  | invoked _ hreads hpop ih => exact within_of_popN ih.stack ⟨_, _, hreads⟩ hpop _
  | applied _ hlambda _ hpop ih =>
    obtain ⟨hliteral, hstack⟩ := Simulation.within_of_agree Simulation.agree_pop ih.stack hlambda
    exact within_of_popN hstack hliteral hpop _
  | @word levels frame level s s' word _ hlevel hrun ih =>
    -- A word may push the lambda itself or an argument, so these have to be part of the invariant.
    have hlevels := Simulation.self_levelsAgree .runnable hlevel
    have hagrees := Simulation.agrees_lambdaWord hlevels (ih.literal frame rfl) (ih.arguments frame rfl) word
    exact ⟨(Simulation.within_of_agree hagrees ih.stack hrun).2, ih.literal, ih.arguments⟩

end Moment

/-! ## Forcing -/

section

variable {literal : String} {lambda : Literal.Lambda} {words : List String}

/-- A lambda on top of the stack that can be read is forced by evaluating its words one level deeper. -/
theorem evalToken_eval_of_reads (h : Literal.Reads literal lambda words) (limit : Nat) (below? : Option Level)
    {s s' : Stack} (hpop : Stack.pop s = .ok (.lambda literal) s') :
    evalToken limit below? "EVAL" s =
      nested limit below? (fun level => runWords level literal lambda.arity words) s' := by
  rw [evalToken_eval, evalTop, bind_of_ok hpop, ← invoke_of_reads h]

/-- A lambda that a parameter stands for and that can be read is evaluated one level deeper, and there its words are
evaluated, again one level deeper. -/
theorem lambdaWord_of_reads (h : Literal.Reads literal lambda words) {limit levels : Nat} {level : Level}
    (hlevel : levelBelow? limit (levels + 1) = some level) (outer : String) {arguments : List Value} {word : String}
    {index : Nat} (hword : parameterIndex? word.toList = some index)
    (hargument : arguments[index]? = some (.lambda literal)) :
    lambdaWord level outer arguments word =
      nested limit (levelBelow? limit levels) fun _ =>
        nested limit (levelBelow? limit (levels - 1)) fun level => runWords level literal lambda.arity words := by
  cases hlevel
  simp only [lambdaWord, if_neg (Literal.ne_selfWord hword), hword, hargument]
  cases levels with
  | zero => rfl
  | succ levels =>
    -- The text is evaluated as a token, and only its first character makes it a lambda.
    change evalToken limit (levelBelow? limit levels) literal = nested limit (levelBelow? limit levels) _
    rw [evalToken_of_brace h.brace, invoke_of_reads h]

end

/-- At every moment that an evaluation reaches, between tokens or inside of one, a lambda that is on the stack or that a
parameter stands for has a text that starts with a brace and can be read, down to its words. Forcing it evaluates these
words: one level deeper if it is taken off a stack, and two levels deeper if a parameter stands for it. -/
theorem Moment.Reached.lambda_runs {limits : Limits} {moment : Moment} (h : moment.Reached limits) {literal : String}
    (hmem : .lambda literal ∈ moment.stack.values ∨ ∃ frame ∈ moment.frame?, .lambda literal ∈ frame.arguments) :
    ∃ lambda words, Literal.Reads literal lambda words ∧
      (∀ limit below? s s', Stack.pop s = .ok (.lambda literal) s' →
        evalToken limit below? "EVAL" s =
          nested limit below? (fun level => runWords level literal lambda.arity words) s') ∧
      ∀ limit levels level, levelBelow? limit (levels + 1) = some level →
        ∀ outer arguments word index, parameterIndex? word.toList = some index →
          arguments[index]? = some (.lambda literal) →
            lambdaWord level outer arguments word =
              nested limit (levelBelow? limit levels) fun _ =>
                nested limit (levelBelow? limit (levels - 1)) fun level =>
                  runWords level literal lambda.arity words := by
  have hrunnable : (Value.lambda literal).Runnable := by
    rcases hmem with hstack | ⟨frame, hframe, hargument⟩
    · exact h.within.stack _ hstack
    · exact h.within.arguments frame hframe _ hargument
  obtain ⟨lambda, words, hreads⟩ := hrunnable
  refine ⟨lambda, words, hreads, ?_, ?_⟩
  · intro limit below? s s' hpop
    exact evalToken_eval_of_reads hreads limit below? hpop
  · intro limit levels level hlevel outer arguments word index hword hargument
    exact lambdaWord_of_reads hreads hlevel outer hword hargument

/-- A lambda literal with a blank after it leaves itself on the stack, and is still there when a sum has failed. Bound
by another lambda, it is invoked where the parameter stands. -/
theorem Moment.Reached.lambda_runs_bound :
    let limits : Limits := { depth := 3, stackSize := 2 }
    let literal := "\x7b0 | SELF\x7d "
    let outer := "\x7b1 | x0\x7d"
    Moment.Reached limits ⟨2, some ⟨outer, [.lambda literal]⟩, .empty 2⟩ ∧
      ∃ lambda words, Literal.Reads literal lambda words ∧
        ∀ level, levelBelow? 3 (2 + 1) = some level →
          lambdaWord level outer [.lambda literal] "x0" =
            nested 3 (levelBelow? 3 2) fun _ =>
              nested 3 (levelBelow? 3 1) fun level => runWords level literal lambda.arity words := by
  intro limits literal outer
  have hliteral : Literal.Reads "\x7b0 | SELF\x7d " { arity := 0, body := ['S', 'E', 'L', 'F'] } ["SELF"] :=
    ⟨rfl, rfl, Token.scan_single rfl rfl⟩
  have houter : Literal.Reads "\x7b1 | x0\x7d" { arity := 1, body := ['x', '0'] } ["x0"] :=
    ⟨rfl, rfl, Token.scan_single rfl rfl⟩
  have hself : evalToken 3 (levelBelow? 3 3) literal (.empty 2) = .ok () (.ofList 2 [.lambda literal]) := by
    rw [evalToken_of_brace hliteral.brace, invoke_of_reads hliteral]
    rfl
  have hstack : ((Machine.new limits).afterTokens [⟨literal, 1⟩, ⟨"+", 1⟩]).stack = .ofList 2 [.lambda literal] := by
    have hcall : (Machine.new limits).call 1 (.token literal) = (.ok (), ⟨limits, .ofList 2 [.lambda literal]⟩) :=
      Machine.call_token_of_ok hself 1
    change (((Machine.new limits).call 1 (.token literal)).2.call 1 (.token "+")).2.stack = _
    rw [hcall]
    rfl
  have htokens : Moment.Reached limits ⟨3, none, .ofList 2 [.lambda literal]⟩ := by
    rw [← hstack]
    exact .tokens _
  have hbound : Moment.Reached limits ⟨2, some ⟨outer, [.lambda literal]⟩, .empty 2⟩ := htokens.invoked houter rfl
  obtain ⟨lambda, words, hreads, _, hforced⟩ :=
    hbound.lambda_runs (.inr ⟨_, rfl, List.mem_singleton_self (Value.lambda literal)⟩)
  refine ⟨hbound, lambda, words, hreads, ?_⟩
  intro level hlevel
  exact hforced 3 2 level hlevel outer _ "x0" 0 rfl rfl

end StackLang
