import StackLang.Evaluator
import StackLang.Located.Literal
import StackLang.Located.Operation

/-!
# Evaluation on a line

Evaluation as it runs: every step is given the line of the token that it works for and builds its failures on that
line. What a token nests is evaluated on the line that the nesting step names, so a lambda's words and a forced text
fail on the line of the token that led to them because this line is handed down, not because there is no other.

`evalTokenAt_eq` connects this evaluator with the one without lines: on every level it does the same to the stack, and
its failures are those of the other one, all of them on the token's line.
-/

namespace StackLang

/-- A step that works on the stack and may fail on a line. -/
abbrev LocatedStep (α : Type) := EStateM (Located Cause) Stack α

/-- Continues with a result that does not depend on the stack. -/
def LocatedStep.lift {α : Type} : LocatedResult α → LocatedStep α
  | .ok a => pure a
  | .error e => throw e

open LocatedStep (lift)

/-! ## Stack operations -/

namespace Stack

/-- Fails unless at least `n` values are present. -/
def requireAt (line n : Nat) : LocatedStep Unit := do
  let s ← get
  if s.size < n then throw { line, cause := .stackUnderflow n s.size }

/-- Puts a value on top. -/
def pushAt (line : Nat) (v : Value) : LocatedStep Unit := do
  let s ← get
  if s.capacity ≤ s.size then throw { line, cause := .stackOverflow s.capacity } else set (s.cons v)

/-- The top `n` values, top first, which stay. -/
def topAt (line n : Nat) : LocatedStep (List Value) := do
  requireAt line n
  match Text.cut? n (← get).values with
  | none => throw { line, cause := .defect .negativeCount }
  | some (front, _) => return front

/-- Removes the top `n` values and gives them, top first. -/
def popNAt (line n : Nat) : LocatedStep (List Value) := do
  let front ← topAt line n
  modify (dropTop n)
  return front

/-- Removes the top value and gives it. -/
def popAt (line : Nat) : LocatedStep Value := do
  match (← get).values with
  | [] => throw { line, cause := .stackUnderflow 1 0 }
  | v :: _ =>
    modify (dropTop 1)
    return v

/-- Removes the top two values and gives them in the order in which they were pushed. -/
def popPairAt (line : Nat) : LocatedStep (Value × Value) := do
  match ← popNAt line 2 with
  | [right, left] => return (left, right)
  | popped => throw { line, cause := .stackUnderflow 2 popped.length }

/-- The top value, which stays. -/
def peekAt (line : Nat) : LocatedStep Value := do
  match (← get).values with
  | [] => throw { line, cause := .stackUnderflow 1 0 }
  | v :: _ => return v

/-- Moves the `n`-th value from the top to the top. -/
def rotateUpAt (line n : Nat) : LocatedStep Unit := do
  let _ ← topAt line n
  modify (rearrangeTop n lastToFront length_lastToFront)

/-- Moves the top value down to the `n`-th position from the top. -/
def rotateDownAt (line n : Nat) : LocatedStep Unit := do
  let _ ← topAt line n
  modify (rearrangeTop n firstToEnd length_firstToEnd)

end Stack

open Stack (requireAt pushAt popAt popNAt popPairAt peekAt rotateUpAt rotateDownAt)

/-! ## Words -/

/-- Replaces the top two values by the result of an operator. -/
def BinaryOp.runAt (line : Nat) (op : BinaryOp) : LocatedStep Unit := do
  let (left, right) ← popPairAt line
  pushAt line (← lift (op.applyAt line left right))

/-- Replaces the top value by the result of an operator. -/
def UnaryOp.runAt (line : Nat) (op : UnaryOp) : LocatedStep Unit := do
  pushAt line (← lift (op.applyAt line (← popAt line)))

/-- Removes a number of stack positions from the stack. -/
def popCountAt (line : Nat) : LocatedStep Nat := do
  lift (Integer.toCountAt line (← lift ((← popAt line).asIntegerAt line)))

/-- Rearranges the stack. -/
def StackWord.runAt (line : Nat) : StackWord → LocatedStep Unit
  | .swap => rotateUpAt line 2
  | .drop => discard (popAt line)
  | .dup => do pushAt line (← peekAt line)
  | .rot => rotateUpAt line 3
  | .roll => do rotateUpAt line (← popCountAt line)
  | .rollDown => do rotateDownAt line (← popCountAt line)

/-- Replaces a condition and two values by the value that the condition chooses. -/
def chooseAt (line : Nat) : LocatedStep Unit := do
  requireAt line 3
  match (← get).values[2]? with
  | none => throw { line, cause := .defect .negativeCount }
  | some (.boolean _) =>
    match ← popNAt line 3 with
    | [whenFalse, whenTrue, condition] =>
      pushAt line (if ← lift (condition.asBooleanAt line) then whenTrue else whenFalse)
    | popped => throw { line, cause := .stackUnderflow 3 popped.length }
  | some _ => throw { line, cause := .expectedBoolean }

/-- Replaces a matrix by its transpose. -/
def transposeTopAt (line : Nat) : LocatedStep Unit := do
  match ← popAt line with
  | .matrix rows => pushAt line (.matrix (IntMatrix.transpose rows))
  | v => throw { line, cause := .typeMismatch (.transposition v.kind) }

/-! ## Nesting -/

/-- What a nesting level offers to the level above it. -/
structure LocatedLevel where
  /-- Evaluates a token that stands on a line, on this level. -/
  token : (line : Nat) → String → LocatedStep Unit
  /-- Evaluates a token that stands on a line, one level deeper. -/
  force : (line : Nat) → String → LocatedStep Unit

/-- Goes one level deeper if there is a level below. -/
def nestedAt (limit line : Nat) (below? : Option LocatedLevel) (body : LocatedLevel → LocatedStep Unit) :
    LocatedStep Unit :=
  match below? with
  | none => throw { line, cause := .recursionLimit limit }
  | some level => body level

/-- Evaluates a word of a lambda's body. A symbol or lambda that a parameter stands for is forced. -/
def lambdaWordAt (level : LocatedLevel) (line : Nat) (literal : String) (arguments : List Value) (word : String) :
    LocatedStep Unit :=
  if word = selfWord then pushAt line (.lambda literal)
  else
    match Literal.parameterIndex? word.toList with
    | none => level.token line word
    | some index =>
      match arguments[index]? with
      | none => throw { line, cause := .unboundParameter index arguments.length }
      | some (.symbol text) | some (.lambda text) => level.force line text
      | some v => pushAt line v

/-- Invokes a lambda literal: takes its arguments off the stack, the first parameter from the top, and
evaluates the words of its body one level deeper. -/
def invokeAt (limit : Nat) (below? : Option LocatedLevel) (line : Nat) (literal : String) : LocatedStep Unit := do
  let lambda ← lift (Literal.readLambdaAt line literal.toList)
  let words ← lift (Literal.readBodyAt line literal.toList lambda.body)
  nestedAt limit line below? fun level => do
    let arguments ← popNAt line lambda.arity
    words.forM fun word => lambdaWordAt level line literal arguments word.text

/-- Takes a value off the stack and evaluates it: lambdas are invoked, the texts of symbols and strings are
evaluated as tokens, and all other values are put back. -/
def evalTopAt (limit : Nat) (below? : Option LocatedLevel) (line : Nat) : LocatedStep Unit := do
  match ← popAt line with
  | .lambda literal => invokeAt limit below? line literal
  | .symbol text | .string text => nestedAt limit line below? fun level => level.token line text
  | v => pushAt line v

/-- Chooses, transposes or forces. -/
def ControlWord.runAt (limit : Nat) (below? : Option LocatedLevel) (line : Nat) : ControlWord → LocatedStep Unit
  | .ifElse => chooseAt line
  | .transpose => transposeTopAt line
  | .eval => evalTopAt limit below? line

/-- Evaluates a word that has the given text. -/
def Word.runAt (limit : Nat) (below? : Option LocatedLevel) (line : Nat) (cs : List Char) : Word → LocatedStep Unit
  | .integer => do pushAt line (.integer (← lift (Literal.readIntegerAt line cs)))
  | .float => pushAt line (.float (Literal.readFloat cs))
  | .boolean b => pushAt line (.boolean b)
  | .binary op => op.runAt line
  | .unary op => op.runAt line
  | .stack word => word.runAt line
  | .control word => word.runAt limit below? line

/-- Evaluates a token that stands on a line, above the given level. Brackets and braces start literals, a quotation
mark starts a quoted token, and a text that is no word stands for itself. -/
def evalTokenAt (limit : Nat) (below? : Option LocatedLevel) (line : Nat) (text : String) : LocatedStep Unit :=
  match text.toList with
  | '[' :: rest => do pushAt line (← lift (Literal.readArrayAt line ('[' :: rest)))
  | '\x7b' :: _ => invokeAt limit below? line text
  | '\'' :: quoted =>
    if Word.isInteger quoted then do pushAt line (.integer (← lift (Literal.readIntegerAt line quoted)))
    else pushAt line (.symbol (String.ofList quoted))
  | cs =>
    match Word.ofChars? cs with
    | some word => word.runAt limit below? line cs
    | none => pushAt line (.string (String.ofList (stringContents cs)))

/-- The level that is reached by going one deeper when `n` levels are left. -/
def locatedLevelBelow? (limit : Nat) : (n : Nat) → Option LocatedLevel
  | 0 => none
  | n + 1 =>
    some {
      token := fun line text => evalTokenAt limit (locatedLevelBelow? limit n) line text
      force := fun line text =>
        nestedAt limit line (locatedLevelBelow? limit n) fun level => level.token line text }

/-! ## Steps with and without lines -/

/-- A step with a line stamped on its failure. -/
def StackStep.onLine {α : Type} (line : Nat) (step : StackStep α) : LocatedStep α := fun s =>
  match step s with
  | .ok a s => .ok a s
  | .error cause s => .error { line, cause } s

section

variable {α β : Type} {line : Nat}

/-- A step that is handed on is stamped before and after it is. -/
theorem bind_eq_onLine {x : StackStep α} {y : LocatedStep α} {f : α → StackStep β} {g : α → LocatedStep β}
    (hx : y = x.onLine line) (hf : ∀ a, g a = (f a).onLine line) : (y >>= g) = StackStep.onLine line (x >>= f) := by
  subst hx
  funext s
  change EStateM.bind _ _ s = StackStep.onLine line (EStateM.bind x f) s
  cases h : x s with
  | ok a s' => simp [EStateM.bind, StackStep.onLine, h, hf]
  | error cause s' => simp [EStateM.bind, StackStep.onLine, h]

/-- A result that does not depend on the stack is stamped. -/
theorem lift_eq_onLine {x : Except Cause α} {y : LocatedResult α} (h : y = stamp line x) :
    lift y = (StackStep.lift x).onLine line := by
  subst h
  cases x <;> rfl

/-- A choice is stamped if both of its branches are. -/
theorem ite_eq_onLine {p : Prop} [Decidable p] {x x' : StackStep α} {y y' : LocatedStep α}
    (hx : y = x.onLine line) (hx' : y' = x'.onLine line) :
    (if p then y else y') = StackStep.onLine line (if p then x else x') := by
  split
  · exact hx
  · exact hx'

/-- The steps for the elements of a list are stamped one by one. -/
theorem forM_eq_onLine {f : α → StackStep Unit} {g : α → LocatedStep Unit} (h : ∀ a, g a = (f a).onLine line)
    (as : List α) : as.forM g = (as.forM f).onLine line := by
  induction as with
  | nil => rfl
  | cons a as ih => exact bind_eq_onLine (h a) fun _ => ih

end

/-! ## Agreement -/

section

variable (line : Nat)

namespace Stack

/-- Missing values fail on the line. -/
theorem requireAt_eq (n : Nat) : requireAt line n = (require n).onLine line :=
  bind_eq_onLine rfl fun _ => ite_eq_onLine rfl rfl

/-- A full stack fails on the line. -/
theorem pushAt_eq (v : Value) : pushAt line v = (push v).onLine line :=
  bind_eq_onLine rfl fun _ => ite_eq_onLine rfl rfl

/-- Looking at values fails on the line. -/
theorem topAt_eq (n : Nat) : topAt line n = (top n).onLine line := by
  refine bind_eq_onLine (requireAt_eq line n) fun _ => bind_eq_onLine rfl fun s => ?_
  cases Text.cut? n s.values <;> rfl

/-- Removing values fails on the line. -/
theorem popNAt_eq (n : Nat) : popNAt line n = (popN n).onLine line :=
  bind_eq_onLine (topAt_eq line n) fun _ => rfl

/-- Removing the top value fails on the line. -/
theorem popAt_eq : popAt line = pop.onLine line := by
  refine bind_eq_onLine rfl fun s => ?_
  cases s.values <;> rfl

/-- Removing two values fails on the line. -/
theorem popPairAt_eq : popPairAt line = popPair.onLine line := by
  refine bind_eq_onLine (popNAt_eq line 2) fun popped => ?_
  rcases popped with _ | ⟨right, _ | ⟨left, _ | _⟩⟩ <;> rfl

/-- Looking at the top value fails on the line. -/
theorem peekAt_eq : peekAt line = peek.onLine line := by
  refine bind_eq_onLine rfl fun s => ?_
  cases s.values <;> rfl

/-- Moving a value up fails on the line. -/
theorem rotateUpAt_eq (n : Nat) : rotateUpAt line n = (rotateUp n).onLine line :=
  bind_eq_onLine (topAt_eq line n) fun _ => rfl

/-- Moving a value down fails on the line. -/
theorem rotateDownAt_eq (n : Nat) : rotateDownAt line n = (rotateDown n).onLine line :=
  bind_eq_onLine (topAt_eq line n) fun _ => rfl

end Stack

open Stack (requireAt_eq pushAt_eq popAt_eq popNAt_eq popPairAt_eq peekAt_eq rotateUpAt_eq rotateDownAt_eq)

/-- Binary operators fail on the line. -/
theorem BinaryOp.runAt_eq (op : BinaryOp) : op.runAt line = op.run.onLine line :=
  bind_eq_onLine (popPairAt_eq line) fun (left, right) =>
    bind_eq_onLine (lift_eq_onLine (op.applyAt_eq line left right)) (pushAt_eq line)

/-- Unary operators fail on the line. -/
theorem UnaryOp.runAt_eq (op : UnaryOp) : op.runAt line = op.run.onLine line :=
  bind_eq_onLine (popAt_eq line) fun v => bind_eq_onLine (lift_eq_onLine (op.applyAt_eq line v)) (pushAt_eq line)

/-- Counts fail on the line. -/
theorem popCountAt_eq : popCountAt line = popCount.onLine line :=
  bind_eq_onLine (popAt_eq line) fun v => bind_eq_onLine (lift_eq_onLine (v.asIntegerAt_eq line)) fun n =>
    lift_eq_onLine (n.toCountAt_eq line)

/-- Rearrangements fail on the line. -/
theorem StackWord.runAt_eq (word : StackWord) : word.runAt line = word.run.onLine line := by
  cases word with
  | swap => exact rotateUpAt_eq line 2
  | drop => exact bind_eq_onLine (popAt_eq line) fun _ => rfl
  | dup => exact bind_eq_onLine (peekAt_eq line) (pushAt_eq line)
  | rot => exact rotateUpAt_eq line 3
  | roll => exact bind_eq_onLine (popCountAt_eq line) (rotateUpAt_eq line)
  | rollDown => exact bind_eq_onLine (popCountAt_eq line) (rotateDownAt_eq line)

/-- Choices fail on the line. -/
theorem chooseAt_eq : chooseAt line = choose.onLine line := by
  refine bind_eq_onLine (requireAt_eq line 3) fun _ => bind_eq_onLine rfl fun s => ?_
  cases s.values[2]? with
  | none => rfl
  | some v =>
    cases v with
    | boolean b =>
      refine bind_eq_onLine (popNAt_eq line 3) fun popped => ?_
      rcases popped with _ | ⟨whenFalse, _ | ⟨whenTrue, _ | ⟨condition, _ | _⟩⟩⟩
      case cons.cons.cons.nil =>
        refine bind_eq_onLine (lift_eq_onLine (condition.asBooleanAt_eq line)) fun b => ?_
        exact pushAt_eq line _
      all_goals rfl
    | _ => rfl

/-- Transpositions fail on the line. -/
theorem transposeTopAt_eq : transposeTopAt line = transposeTop.onLine line := by
  refine bind_eq_onLine (popAt_eq line) fun v => ?_
  cases v with
  | matrix rows => exact pushAt_eq line _
  | _ => rfl

end

/-- Whether two levels do the same, the one with lines on every line that it is given. -/
inductive LocatedLevel.Agrees : Option LocatedLevel → Option Level → Prop
  | none : Agrees none none
  | some {located : LocatedLevel} {level : Level}
      (token : ∀ line text, located.token line text = (level.token text).onLine line)
      (force : ∀ line text, located.force line text = (level.force text).onLine line) :
      Agrees (some located) (some level)

section

variable {limit : Nat} {located? : Option LocatedLevel} {below? : Option Level}

/-- Words of a lambda fail on the line. -/
theorem lambdaWordAt_eq {located : LocatedLevel} {level : Level}
    (h : LocatedLevel.Agrees (some located) (some level)) (line : Nat) (literal : String) (arguments : List Value)
    (word : String) :
    lambdaWordAt located line literal arguments word = (lambdaWord level literal arguments word).onLine line := by
  cases h with | some htoken hforce =>
  refine ite_eq_onLine (Stack.pushAt_eq line _) ?_
  cases Literal.parameterIndex? word.toList with
  | none => exact htoken line word
  | some index =>
    dsimp only
    cases arguments[index]? with
    | none => rfl
    | some v =>
      cases v with
      | symbol text | lambda text => exact hforce line text
      | _ => exact Stack.pushAt_eq line _

/-- Nesting too deep fails on the line, and so does what is nested. -/
theorem nestedAt_eq (h : LocatedLevel.Agrees located? below?) (line : Nat) {body : Level → StackStep Unit}
    {bodyAt : LocatedLevel → LocatedStep Unit}
    (hbody : ∀ located level, LocatedLevel.Agrees (some located) (some level) →
      bodyAt located = (body level).onLine line) :
    nestedAt limit line located? bodyAt = (nested limit below? body).onLine line := by
  cases h with
  | none => rfl
  | some htoken hforce => exact hbody _ _ (.some htoken hforce)

/-- Invocations fail on the line. -/
theorem invokeAt_eq (h : LocatedLevel.Agrees located? below?) (line : Nat) (literal : String) :
    invokeAt limit located? line literal = (invoke limit below? literal).onLine line := by
  refine bind_eq_onLine (lift_eq_onLine (Literal.readLambdaAt_eq line _)) fun lambda => ?_
  have hwords {words : List String} :
      nestedAt limit line located? (fun level => do
        let arguments ← Stack.popNAt line lambda.arity
        (words.map fun text => { text, line : Token }).forM fun word =>
          lambdaWordAt level line literal arguments word.text) =
        (nested limit below? fun level => do
          let arguments ← Stack.popN lambda.arity
          words.forM (lambdaWord level literal arguments)).onLine line := by
    refine nestedAt_eq h line fun located level hlevel => ?_
    refine bind_eq_onLine (Stack.popNAt_eq line _) fun arguments => ?_
    rw [List.forM_eq_forM, List.forM_map]
    exact forM_eq_onLine (fun word => lambdaWordAt_eq hlevel line literal arguments word) words
  rw [Literal.readBodyAt_eq]
  cases Literal.readBody literal.toList lambda.body with
  | error cause => rfl
  | ok words => exact hwords

/-- Evaluating the top value fails on the line. -/
theorem evalTopAt_eq (h : LocatedLevel.Agrees located? below?) (line : Nat) :
    evalTopAt limit located? line = (evalTop limit below?).onLine line := by
  refine bind_eq_onLine (Stack.popAt_eq line) fun v => ?_
  cases v with
  | lambda literal => exact invokeAt_eq h line literal
  | symbol text | string text =>
    refine nestedAt_eq h line fun located level hlevel => ?_
    cases hlevel with | some htoken _ => exact htoken line text
  | _ => exact Stack.pushAt_eq line _

/-- Control words fail on the line. -/
theorem ControlWord.runAt_eq (h : LocatedLevel.Agrees located? below?) (line : Nat) (word : ControlWord) :
    word.runAt limit located? line = (word.run limit below?).onLine line := by
  cases word with
  | ifElse => exact chooseAt_eq line
  | transpose => exact transposeTopAt_eq line
  | eval => exact evalTopAt_eq h line

/-- Words fail on the line. -/
theorem Word.runAt_eq (h : LocatedLevel.Agrees located? below?) (line : Nat) (cs : List Char) (word : Word) :
    word.runAt limit located? line cs = (word.run limit below? cs).onLine line := by
  cases word with
  | integer =>
    exact bind_eq_onLine (lift_eq_onLine (Literal.readIntegerAt_eq line cs)) fun _ => Stack.pushAt_eq line _
  | float => exact Stack.pushAt_eq line _
  | boolean b => exact Stack.pushAt_eq line _
  | binary op => exact op.runAt_eq line
  | unary op => exact op.runAt_eq line
  | stack word => exact word.runAt_eq line
  | control word => exact word.runAt_eq h line

/-- Tokens fail on their line. -/
theorem evalTokenAt_eq_of_agrees (h : LocatedLevel.Agrees located? below?) (line : Nat) (text : String) :
    evalTokenAt limit located? line text = (evalToken limit below? text).onLine line := by
  unfold evalTokenAt evalToken
  generalize text.toList = cs
  split
  · exact bind_eq_onLine (lift_eq_onLine (Literal.readArrayAt_eq line _)) (Stack.pushAt_eq line)
  · exact invokeAt_eq h line text
  · refine ite_eq_onLine ?_ (Stack.pushAt_eq line _)
    exact bind_eq_onLine (lift_eq_onLine (Literal.readIntegerAt_eq line _)) fun _ => Stack.pushAt_eq line _
  · obtain hword | ⟨word, hword⟩ := Option.eq_none_or_eq_some (Word.ofChars? cs)
    · simp only [hword]
      exact Stack.pushAt_eq line _
    · simp only [hword]
      exact word.runAt_eq h line cs

end

/-- The levels with and without lines agree, however many are left. -/
theorem LocatedLevel.agrees_levelBelow? (limit n : Nat) :
    LocatedLevel.Agrees (locatedLevelBelow? limit n) (levelBelow? limit n) := by
  induction n with
  | zero => exact .none
  | succ n ih =>
    refine .some (fun line text => evalTokenAt_eq_of_agrees ih line text) fun line text => ?_
    refine nestedAt_eq ih line fun located level hlevel => ?_
    cases hlevel with | some htoken _ => exact htoken line text

/-- A token does the same with lines and without, and all of its failures are on its line. -/
theorem evalTokenAt_eq (limit n line : Nat) (text : String) :
    evalTokenAt limit (locatedLevelBelow? limit n) line text =
      (evalToken limit (levelBelow? limit n) text).onLine line :=
  evalTokenAt_eq_of_agrees (LocatedLevel.agrees_levelBelow? limit n) line text

end StackLang
