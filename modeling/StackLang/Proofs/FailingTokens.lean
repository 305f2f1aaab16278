import StackLang.Proofs.Invocation
import StackLang.Proofs.Words

/-!
# What a failing token takes off the stack

A token that fails leaves the stack as it was, apart from the operands that it has already taken: two for a binary
operator, one for a unary operator, for transposition and for a roll, and none if there are too few of them. All other
words fail before they take anything. For a choice this rests on the room that its three values leave behind.

A lambda literal that is refused before its words are evaluated leaves the stack as it was as well. What its words, and
a text that is forced, have done up to a failure is not covered here.
-/

namespace StackLang

/-- How many values a word takes off the stack before it can still fail. -/
def Word.operands : Word → Nat
  | binary _ => 2
  | unary _ | stack .roll | stack .rollDown | control .transpose => 1
  | _ => 0

/-- How many values a token takes off the stack before it can still fail. Only fixed spellings take any. -/
def operandsOf (text : String) : Nat :=
  match Word.fixed.lookup text with
  | some word => word.operands
  | none => 0

/-- How many of a number of operands are taken off a stack: all of them, or none if they are not all there. -/
def Stack.taken (operands : Nat) (s : Stack) : Nat := if s.size < operands then 0 else operands

/-! ## Spellings -/

section

variable {text : String}

/-- A text that is a word takes the operands of the word. -/
theorem operandsOf_of_ofChars? {word : Word} (h : Word.ofChars? text.toList = some word) :
    operandsOf text = word.operands := by
  unfold operandsOf
  cases hlookup : Word.fixed.lookup text with
  | some word' =>
    obtain ⟨front, back, hfixed, -⟩ := List.lookup_eq_some_iff.mp hlookup
    have hword := Word.ofChars?_of_mem_fixed (text, word') (by simp [hfixed])
    cases h.symm.trans hword
    rfl
  | none =>
    rcases Word.cases_of_ofChars? h with ⟨rfl, -⟩ | ⟨rfl, -⟩ | ⟨spelling, hmem, hspelling⟩
    · rfl
    · rfl
    · cases String.toList_inj.mp hspelling
      simpa using List.lookup_eq_none_iff.mp hlookup _ hmem

/-- A text that is no word takes nothing. -/
theorem operandsOf_of_ofChars?_none (h : Word.ofChars? text.toList = none) : operandsOf text = 0 := by
  unfold operandsOf
  cases hlookup : Word.fixed.lookup text with
  | none => rfl
  | some word =>
    obtain ⟨front, back, hfixed, -⟩ := List.lookup_eq_some_iff.mp hlookup
    have hword := Word.ofChars?_of_mem_fixed (text, word) (by simp [hfixed])
    cases h.symm.trans hword

/-- Neither an array nor a quoted token has a fixed spelling. -/
theorem Word.head?_of_mem_fixed :
    ∀ entry ∈ fixed, entry.1.toList.head? ≠ some '[' ∧ entry.1.toList.head? ≠ some '\'' := by
  decide

/-- Neither an array nor a quoted token takes anything. -/
theorem operandsOf_of_head? (h : text.toList.head? = some '[' ∨ text.toList.head? = some '\'') :
    operandsOf text = 0 := by
  unfold operandsOf
  cases hlookup : Word.fixed.lookup text with
  | none => rfl
  | some word =>
    obtain ⟨front, back, hfixed, -⟩ := List.lookup_eq_some_iff.mp hlookup
    obtain ⟨hbracket, hquote⟩ := Word.head?_of_mem_fixed (text, word) (by simp [hfixed])
    exact (h.elim hbracket hquote).elim

end

/-! ## Steps -/

namespace StackStep

/-- Whether a step that fails leaves the stack as it was. -/
def FailsIntact {α : Type} (x : StackStep α) : Prop := ∀ s cause s', x s = .error cause s' → s' = s

/-- Whether a step that fails on a stack within its capacity has taken its operands off, and done nothing else. -/
def FailsTaking (operands : Nat) {α : Type} (x : StackStep α) : Prop :=
  ∀ s cause s', s.size ≤ s.capacity → x s = .error cause s' → s' = s.dropTop (s.taken operands)

variable {α β : Type}

/-- A step that fails intact takes nothing. -/
theorem FailsIntact.taking {x : StackStep α} (h : FailsIntact x) : FailsTaking 0 x :=
  fun s cause s' _ hrun => h s cause s' hrun

/-- A computation apart from the stack does not touch it. -/
theorem FailsIntact.lift_bind {x : Except Cause α} {f : α → StackStep β} (h : ∀ a, FailsIntact (f a)) :
    FailsIntact (lift x >>= f) := by
  cases x with
  | ok a => exact h a
  | error cause =>
    intro s cause' s' hrun
    cases hrun
    rfl

/-- A step that checks the stack first, and cannot fail once it goes on, fails before it changes the stack. -/
theorem FailsIntact.of_check {x : StackStep α} {refused : Stack → Prop} [∀ s, Decidable (refused s)]
    {cause : Stack → Cause} {a : Stack → α} {after : Stack → Stack}
    (h : ∀ s, x s = if refused s then .error (cause s) s else .ok (a s) (after s)) : FailsIntact x := by
  intro s cause' s' hrun
  rw [h] at hrun
  split at hrun <;> cases hrun
  rfl

/-- A push fails before it changes the stack. -/
theorem FailsIntact.push (v : Value) : FailsIntact (Stack.push v) := .of_check (Stack.push_apply v)

/-- A step that removes operands and then fails intact has taken these operands. -/
theorem FailsTaking.bind {operands : Nat} {x : StackStep α} {f : α → StackStep β}
    (hx : ∀ s, (s.size < operands ∧ ∃ cause, x s = .error cause s) ∨
      (operands ≤ s.size ∧ ∃ a, x s = .ok a (s.dropTop operands)))
    (hf : ∀ a, FailsIntact (f a)) : FailsTaking operands (x >>= f) := by
  intro s cause s' _ hrun
  rcases hx s with ⟨hfew, cause', herror⟩ | ⟨henough, a, hok⟩
  · rw [bind_of_error herror] at hrun
    cases hrun
    rw [Stack.taken, if_pos hfew]
    rfl
  · rw [bind_of_ok hok] at hrun
    rw [hf a _ _ _ hrun, Stack.taken, if_neg (Nat.not_lt.mpr henough)]

/-- What follows the removal of the top value has taken this value. -/
theorem FailsTaking.pop_bind {f : Value → StackStep α} (hf : ∀ v, FailsIntact (f v)) :
    FailsTaking 1 (Stack.pop >>= f) := by
  refine .bind (fun s => ?_) hf
  rw [Stack.pop_apply]
  cases hvalues : s.values with
  | nil => exact .inl ⟨by simp [s.size_eq, hvalues], _, rfl⟩
  | cons v rest => exact .inr ⟨by simp [s.size_eq, hvalues], v, rfl⟩

/-- What follows the removal of two values has taken both of them. -/
theorem FailsTaking.popPair_bind {f : Value × Value → StackStep α} (hf : ∀ pair, FailsIntact (f pair)) :
    FailsTaking 2 (Stack.popPair >>= f) := by
  refine .bind (fun s => ?_) hf
  rw [Stack.popPair_apply]
  match hvalues : s.values with
  | [] | [_] => exact .inl ⟨by simp [s.size_eq, hvalues], _, rfl⟩
  | right :: left :: rest => exact .inr ⟨by simp [s.size_eq, hvalues], (left, right), rfl⟩

/-- A rotation fails before it changes the stack. -/
theorem FailsIntact.rotateUp (n : Nat) : FailsIntact (Stack.rotateUp n) := .of_check (Stack.rotateUp_apply n)

/-- A rotation in the other direction fails before it changes the stack. -/
theorem FailsIntact.rotateDown (n : Nat) : FailsIntact (Stack.rotateDown n) := .of_check (Stack.rotateDown_apply n)

/-- Removing the top value fails before it changes the stack. -/
theorem FailsIntact.pop : FailsIntact Stack.pop := by
  intro s cause s' hrun
  rw [Stack.pop_apply] at hrun
  split at hrun <;> cases hrun
  rfl

/-- What follows a reading of the top value starts on the same stack. -/
theorem FailsIntact.peek_bind {f : Value → StackStep α} (hf : ∀ v, FailsIntact (f v)) :
    FailsIntact (Stack.peek >>= f) := by
  intro s cause s' hrun
  have hpeek := Stack.peek_apply s
  cases hvalues : s.values with
  | nil =>
    rw [hvalues] at hpeek
    rw [bind_of_error hpeek] at hrun
    cases hrun
    rfl
  | cons v rest =>
    rw [hvalues] at hpeek
    rw [bind_of_ok hpeek] at hrun
    exact hf v s cause s' hrun

/-- A result that is not used makes no difference to how a step fails. -/
theorem FailsIntact.discard {x : StackStep α} (h : FailsIntact x) : FailsIntact (discard x) := by
  intro s cause s' hrun
  change (x >>= fun _ => pure ()) s = _ at hrun
  cases hresult : x s with
  | ok a s₁ =>
    rw [bind_of_ok hresult] at hrun
    cases hrun
  | error cause' s₁ =>
    rw [bind_of_error hresult] at hrun
    cases hrun
    exact h s cause s' hresult

end StackStep

/-! ## Words -/

section

open StackStep (FailsIntact FailsTaking)

/-- A roll has taken its count. -/
theorem popCount_failsTaking {f : Nat → StackStep Unit} (hf : ∀ n, FailsIntact (f n)) :
    FailsTaking 1 (popCount >>= f) := by
  rw [popCount, bind_assoc]
  refine .pop_bind fun v => ?_
  rw [bind_assoc]
  exact .lift_bind fun n => .lift_bind hf

/-- A stack word takes the count of a roll, and nothing else. -/
theorem StackWord.run_failsTaking (word : StackWord) : FailsTaking (Word.stack word).operands word.run := by
  cases word with
  | swap => exact (FailsIntact.rotateUp 2).taking
  | drop => exact FailsIntact.pop.discard.taking
  | dup => exact (FailsIntact.peek_bind .push).taking
  | rot => exact (FailsIntact.rotateUp 3).taking
  | roll => exact popCount_failsTaking .rotateUp
  | rollDown => exact popCount_failsTaking .rotateDown

/-- A choice fails before it takes anything: once its three values are gone there is room for the chosen one. -/
theorem choose_failsTaking : FailsTaking 0 choose := by
  intro s cause s' hs hrun
  rw [choose_apply] at hrun
  split at hrun
  · rename_i rest hvalues
    have hsize : 3 ≤ s.size := by simp [s.size_eq, hvalues]
    have hroom : (s.dropTop 3).size < (s.dropTop 3).capacity := by
      change s.size - 3 < s.capacity
      omega
    rw [Stack.push_apply, if_neg (Nat.not_le.mpr hroom)] at hrun
    cases hrun
  · cases hrun
    rfl
  · cases hrun
    rfl

/-- A transposition has taken the value that it does not apply to. -/
theorem transposeTop_failsTaking : FailsTaking 1 transposeTop := by
  refine .pop_bind fun v => ?_
  cases v with
  | matrix rows => exact .push _
  | _ =>
    intro s cause s' hrun
    cases hrun
    rfl

variable {limit : Nat} {below? : Option Level}

/-- A word other than the one for forcing takes its operands, and nothing else. -/
theorem Word.run_failsTaking {word : Word} (h : word ≠ .control .eval) (cs : List Char) :
    FailsTaking word.operands (word.run limit below? cs) := by
  cases word with
  | integer => exact (FailsIntact.lift_bind fun n => .push _).taking
  | float => exact (FailsIntact.push _).taking
  | boolean b => exact (FailsIntact.push _).taking
  | binary op => exact .popPair_bind fun pair => .lift_bind .push
  | unary op => exact .pop_bind fun v => .lift_bind .push
  | stack word => exact word.run_failsTaking
  | control word =>
    cases word with
    | ifElse => exact choose_failsTaking
    | transpose => exact transposeTop_failsTaking
    | eval => exact absurd rfl h

/-- A token that neither forces nor invokes takes its operands, and nothing else. -/
theorem evalToken_failsTaking {text : String} (heval : text ≠ ControlWord.eval.spelling)
    (hbrace : text.toList.head? ≠ some '\x7b') :
    FailsTaking (operandsOf text) (evalToken limit below? text) := by
  unfold evalToken
  split
  · rename_i htext
    rw [operandsOf_of_head? (.inl (by rw [htext]; rfl))]
    exact (FailsIntact.lift_bind .push).taking
  · rename_i htext
    exact absurd (by rw [htext]; rfl) hbrace
  · rename_i quoted htext
    rw [operandsOf_of_head? (.inr (by rw [htext]; rfl))]
    split
    · exact (FailsIntact.lift_bind fun n => .push _).taking
    · exact (FailsIntact.push _).taking
  · split
    · rename_i word hword
      have hnotEval : word ≠ .control .eval := by
        rintro rfl
        have hone : ∀ entry ∈ Word.fixed, entry.2 = .control .eval → entry.1 = ControlWord.eval.spelling := by decide
        obtain ⟨spelling, hmem, hspelling⟩ := ((Word.cases_of_ofChars? hword).resolve_left nofun).resolve_left nofun
        exact heval ((String.toList_inj.mp hspelling).trans (hone _ hmem rfl))
      rw [operandsOf_of_ofChars? hword]
      exact Word.run_failsTaking hnotEval _
    · rename_i hword
      rw [operandsOf_of_ofChars?_none hword]
      exact (FailsIntact.push _).taking

end

/-! ## Lambda literals -/

section

variable {limit : Nat} {below? : Option Level} {literal : String}

/-- A lambda literal that cannot be read, or whose body cannot, fails before it changes the stack. -/
theorem invoke_of_not_reads (hbrace : literal.toList.head? = some '\x7b')
    (h : ¬ ∃ lambda words, Literal.Reads literal lambda words) (s : Stack) :
    ∃ cause, (cause = .literalTooLarge ∨ ∃ malformation, cause = .malformedLiteral literal malformation) ∧
      invoke limit below? literal s = .error cause s := by
  cases hlambda : Literal.readLambda literal.toList with
  | error cause =>
    refine ⟨cause, ?_, ?_⟩
    · simpa using Literal.readLambda_error hlambda
    · rw [invoke, hlambda]
      rfl
  | ok lambda =>
    cases hwords : Token.scan lambda.body with
    | ok words => exact absurd ⟨lambda, words, hbrace, hlambda, hwords⟩ h
    | error cause =>
      obtain ⟨kind, rfl⟩ := Token.scan_error hwords
      exact ⟨.malformedLiteral literal (.unreadableBody kind), .inr ⟨_, rfl⟩, invoke_of_open hlambda hwords s⟩

/-- A lambda that does not find its arguments fails before it changes the stack. -/
theorem runWords_of_lt {arity : Nat} {s : Stack} (h : s.size < arity) (level : Level) (words : List String) :
    runWords level literal arity words s = .error (.stackUnderflow arity s.size) s := by
  have hpop := Stack.popN_apply arity s
  rw [if_pos h] at hpop
  exact bind_of_error hpop

end

/-- A token that fails on a stack within its capacity has taken its operands off, if they were all there, and changed
nothing else. This leaves out tokens that force or invoke. A lambda literal that cannot be read, finds no level left or
finds too few arguments leaves the stack as it was. -/
theorem evalTokens_failure_takes (limit levels line : Nat) (text : String) {s : Stack} (hs : s.size ≤ s.capacity) :
    (text ≠ ControlWord.eval.spelling → text.toList.head? ≠ some '\x7b' →
      ∀ e s', evalTokens limit levels [⟨text, line⟩] s = .error e s' → s' = s.dropTop (s.taken (operandsOf text))) ∧
    (text.toList.head? = some '\x7b' →
      ((¬ ∃ lambda words, Literal.Reads text lambda words) →
        ∃ cause, (cause = .literalTooLarge ∨ ∃ malformation, cause = .malformedLiteral text malformation) ∧
          evalTokens limit levels [⟨text, line⟩] s = .error ⟨line, cause⟩ s) ∧
      ∀ lambda words, Literal.Reads text lambda words →
        (levels = 0 → evalTokens limit levels [⟨text, line⟩] s = .error ⟨line, .recursionLimit limit⟩ s) ∧
        (0 < levels → s.size < lambda.arity →
          evalTokens limit levels [⟨text, line⟩] s = .error ⟨line, .stackUnderflow lambda.arity s.size⟩ s)) := by
  refine ⟨fun heval hbrace e s' hrun => ?_, fun hbrace => ⟨fun hunreadable => ?_, fun lambda words hreads => ⟨?_, ?_⟩⟩⟩
  · rw [evalTokens_singleton] at hrun
    cases hresult : evalToken limit (levelBelow? limit levels) text s with
    | ok _ s₁ =>
      rw [StackStep.onLine_of_ok hresult] at hrun
      cases hrun
    | error cause s₁ =>
      rw [StackStep.onLine_of_error hresult] at hrun
      cases hrun
      exact evalToken_failsTaking heval hbrace s cause s' hs hresult
  · obtain ⟨cause, hcause, hinvoke⟩ := invoke_of_not_reads hbrace hunreadable s
    refine ⟨cause, hcause, evalTokens_cons_of_error ?_ []⟩
    rw [evalToken_of_brace hbrace, hinvoke]
  · rintro rfl
    apply evalTokens_cons_of_error
    rw [evalToken_of_brace hbrace, invoke_of_reads hreads]
    rfl
  · intro hlevels hfew
    obtain ⟨levels, rfl⟩ := Nat.exists_eq_succ_of_ne_zero (Nat.ne_of_gt hlevels)
    rw [evalTokens_of_reads hreads rfl]
    exact StackStep.onLine_of_error (runWords_of_lt hfew _ words) line

/-- A roll has taken its count when it finds too few values below it, and a lambda that finds too few arguments has
taken none of them. -/
theorem evalTokens_failure_takes_count :
    let s := Stack.ofList 2 [.integer 5, .boolean true]
    (evalTokens 1 1 [⟨"ROLLD", 3⟩] s = .error ⟨3, .stackUnderflow 5 1⟩ (.ofList 2 [.boolean true]) ∧
      Stack.ofList 2 [.boolean true] = s.dropTop (s.taken (operandsOf "ROLLD"))) ∧
    evalTokens 1 1 [⟨"\x7b3 | x0\x7d", 3⟩] s = .error ⟨3, .stackUnderflow 3 2⟩ s := by
  intro s
  have hs : s.size ≤ s.capacity := by decide
  have hroll : evalTokens 1 1 [⟨"ROLLD", 3⟩] s = .error ⟨3, .stackUnderflow 5 1⟩ (.ofList 2 [.boolean true]) := rfl
  have hreads : Literal.Reads "\x7b3 | x0\x7d" ⟨3, ['x', '0']⟩ ["x0"] := by
    have hcount : Text.isNumeral "3".toList = true := by decide
    have hwords : Token.scan "x0".toList = .ok ["x0"] := Token.scan_single rfl rfl
    exact Literal.reads_lambdaText hcount (by decide) hwords
  obtain ⟨htakes, -⟩ := evalTokens_failure_takes 1 1 3 "ROLLD" hs
  obtain ⟨-, hlambda⟩ := evalTokens_failure_takes 1 1 3 "\x7b3 | x0\x7d" hs
  refine ⟨⟨hroll, htakes (by decide) (by decide) _ _ hroll⟩, ?_⟩
  exact ((hlambda rfl).2 _ _ hreads).2 (by decide) (by decide)

end StackLang
