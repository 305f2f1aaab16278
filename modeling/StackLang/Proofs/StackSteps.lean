import StackLang.Machine

/-!
# What the stack operations do

One equation for each operation on the stack. It says for which stacks the operation fails and with which
cause, and otherwise gives its result and the stack after it. A failing operation leaves the stack alone.
Everything that is proved about evaluation goes through these equations.
-/

namespace StackLang

section

variable {ε α β : Type} {x : EStateM ε Stack α} {f : α → EStateM ε Stack β} {s s' : Stack}

/-- A step that succeeds hands its result and its stack on. -/
theorem bind_of_ok {a : α} (h : x s = .ok a s') : (x >>= f) s = f a s' := by
  change EStateM.bind x f s = _
  rw [EStateM.bind, h]

/-- A step that fails ends what it is part of. -/
theorem bind_of_error {e : ε} (h : x s = .error e s') : (x >>= f) s = .error e s' := by
  change EStateM.bind x f s = _
  rw [EStateM.bind, h]

end

namespace Stack

variable (n : Nat) (v : Value) (s : Stack)

/-- A requirement fails exactly on a stack with too few values. -/
theorem require_apply :
    require n s = if s.size < n then .error (.stackUnderflow n s.size) s else .ok () s := by
  change (if s.size < n then throw (.stackUnderflow n s.size) else pure () : StackStep Unit) s = _
  split <;> rfl

/-- A push fails exactly on a full stack. -/
theorem push_apply :
    push v s = if s.capacity ≤ s.size then .error (.stackOverflow s.capacity) s else .ok () (s.cons v) := by
  change (if s.capacity ≤ s.size then throw (.stackOverflow s.capacity)
    else set (s.cons v) : StackStep Unit) s = _
  split <;> rfl

/-- Reading the top fails exactly on a stack with too few values. -/
theorem top_apply :
    top n s = if s.size < n then .error (.stackUnderflow n s.size) s else .ok (s.values.take n) s := by
  by_cases h : s.size < n
  · have hrequire : require n s = .error (.stackUnderflow n s.size) s := by rw [require_apply, if_pos h]
    rw [if_pos h]
    exact bind_of_error hrequire
  · have hrequire : require n s = .ok () s := by rw [require_apply, if_neg h]
    have hcut : Text.cut? n s.values = some (s.values.take n, s.values.drop n) := by
      rw [Text.cut?_eq, if_pos (by rw [← s.size_eq]; omega)]
    have hget : (get : StackStep Stack) s = .ok s s := rfl
    rw [if_neg h, top, bind_of_ok hrequire, bind_of_ok hget, hcut]
    rfl

/-- What follows a reading of the top runs on the same stack, unless there are too few values. -/
theorem top_bind {α : Type} (f : List Value → StackStep α) :
    (top n >>= f) s =
      if s.size < n then .error (.stackUnderflow n s.size) s else f (s.values.take n) s := by
  have htop := top_apply n s
  by_cases h : s.size < n
  · rw [if_pos h] at htop ⊢
    exact bind_of_error htop
  · rw [if_neg h] at htop ⊢
    exact bind_of_ok htop

/-- Removing values fails exactly on a stack with too few of them. -/
theorem popN_apply :
    popN n s =
      if s.size < n then .error (.stackUnderflow n s.size) s else .ok (s.values.take n) (s.dropTop n) :=
  top_bind n s _

/-- Moving a value up fails exactly on a stack with too few values. -/
theorem rotateUp_apply :
    rotateUp n s =
      if s.size < n then .error (.stackUnderflow n s.size) s
      else .ok () (s.rearrangeTop n lastToFront length_lastToFront) :=
  top_bind n s _

/-- Moving a value down fails exactly on a stack with too few values. -/
theorem rotateDown_apply :
    rotateDown n s =
      if s.size < n then .error (.stackUnderflow n s.size) s
      else .ok () (s.rearrangeTop n firstToEnd length_firstToEnd) :=
  top_bind n s _

/-- Removing the top value fails exactly on a stack without values. -/
theorem pop_apply :
    pop s =
      match s.values with
      | [] => .error (.stackUnderflow 1 0) s
      | v :: _ => .ok v (s.dropTop 1) := by
  change (match s.values with
    | [] => throw (.stackUnderflow 1 0)
    | v :: _ => do modify (dropTop 1); return v : StackStep Value) s = _
  cases s.values <;> rfl

/-- Reading the top value fails exactly on a stack without values. -/
theorem peek_apply :
    peek s =
      match s.values with
      | [] => .error (.stackUnderflow 1 0) s
      | v :: _ => .ok v s := by
  change (match s.values with
    | [] => throw (.stackUnderflow 1 0)
    | v :: _ => pure v : StackStep Value) s = _
  cases s.values <;> rfl

/-- Removing a pair fails exactly on a stack with fewer than two values. -/
theorem popPair_apply :
    popPair s =
      match s.values with
      | right :: left :: _ => .ok (left, right) (s.dropTop 2)
      | _ => .error (.stackUnderflow 2 s.size) s := by
  have hpop := popN_apply 2 s
  rw [popPair]
  match hvalues : s.values with
  | [] | [_] =>
    rw [if_pos (by simp [s.size_eq, hvalues])] at hpop
    exact bind_of_error hpop
  | right :: left :: rest =>
    rw [if_neg (by simp [s.size_eq, hvalues]), hvalues] at hpop
    exact bind_of_ok hpop

/-- Moving the last element keeps all elements. -/
theorem lastToFront_perm (front : List Value) : (lastToFront front).Perm front := by
  rcases List.eq_nil_or_concat front with rfl | ⟨rest, v, rfl⟩
  · exact .nil
  · simpa [lastToFront] using (List.perm_append_singleton v rest).symm

/-- Moving the first element keeps all elements. -/
theorem firstToEnd_perm (front : List Value) : (firstToEnd front).Perm front := by
  cases front with
  | nil => exact .nil
  | cons v rest => exact List.perm_append_singleton v rest

end Stack

/-- A choice needs three values, of which the lowest is a truth value, and fails without touching them. -/
theorem choose_apply (s : Stack) :
    choose s =
      match s.values with
      | whenFalse :: whenTrue :: .boolean b :: _ =>
        Stack.push (if b then whenTrue else whenFalse) (s.dropTop 3)
      | _ :: _ :: _ :: _ => .error .expectedBoolean s
      | _ => .error (.stackUnderflow 3 s.size) s := by
  have hrequire := Stack.require_apply 3 s
  have hpop := Stack.popN_apply 3 s
  rw [choose]
  match hvalues : s.values with
  | [] | [_] | [_, _] =>
    rw [if_pos (by simp [s.size_eq, hvalues])] at hrequire
    exact bind_of_error hrequire
  | whenFalse :: whenTrue :: condition :: rest =>
    have henough : ¬ s.size < 3 := by simp [s.size_eq, hvalues]
    rw [if_neg henough] at hrequire hpop
    have hget : (get : StackStep Stack) s = .ok s s := rfl
    rw [bind_of_ok hrequire, bind_of_ok hget, hvalues]
    rw [hvalues] at hpop
    cases condition with
    | boolean b => exact bind_of_ok hpop
    | _ => rfl

/-- A line changes nothing about a step that succeeds. -/
theorem StackStep.onLine_of_ok {α : Type} {x : StackStep α} {a : α} {s s' : Stack} (h : x s = .ok a s')
    (line : Nat) : x.onLine line s = .ok a s' := by
  simp only [onLine, h]

/-- A step that fails on a line fails with its cause and that line. -/
theorem StackStep.onLine_of_error {α : Type} {x : StackStep α} {cause : Cause} {s s' : Stack}
    (h : x s = .error cause s') (line : Nat) : x.onLine line s = .error { line, cause } s' := by
  simp only [onLine, h]

section

variable {α : Type} {x : Except Cause α} {line : Nat} {s : Stack}

/-- A computation apart from the stack that succeeds leaves the stack as it is. -/
theorem StackStep.lift_ok (a : α) (s : Stack) : lift (.ok a) s = .ok a s := rfl

/-- A computation apart from the stack that fails leaves the stack as it is. -/
theorem StackStep.lift_error (cause : Cause) (s : Stack) : (lift (.error cause) : StackStep α) s = .error cause s := rfl

/-- A computation apart from the stack succeeds on a line as it does without one. -/
theorem LocatedStep.lift_stamp_eq_ok_iff {a : α} : lift (stamp line x) s = .ok a s ↔ x = .ok a := by
  rw [lift_eq_onLine rfl]
  cases x with
  | ok b => simp [StackStep.onLine_of_ok (StackStep.lift_ok b s)]
  | error cause => simp [StackStep.onLine_of_error (StackStep.lift_error cause s)]

/-- A computation apart from the stack fails on a line with its cause and that line. -/
theorem LocatedStep.lift_stamp_eq_error_iff {cause : Cause} :
    lift (stamp line x) s = .error { line, cause } s ↔ x = .error cause := by
  rw [lift_eq_onLine rfl]
  cases x with
  | ok b => simp [StackStep.onLine_of_ok (StackStep.lift_ok b s)]
  | error cause => simp [StackStep.onLine_of_error (StackStep.lift_error cause s)]

end

/-- Tokens are evaluated as without lines, and each fails on its own line. -/
theorem evalTokens_eq (limit levels : Nat) (tokens : List Token) :
    evalTokens limit levels tokens =
      tokens.forM fun token => (evalToken limit (levelBelow? limit levels) token.text).onLine token.line :=
  congrArg (tokens.forM ·) (funext fun token => evalTokenAt_eq limit levels token.line token.text)

/-- Tokens are evaluated one after another, on the stack that the ones before have left. -/
theorem evalTokens_cons_of_ok {limit levels : Nat} {token : Token} {s s' : Stack}
    (h : evalToken limit (levelBelow? limit levels) token.text s = .ok () s') (tokens : List Token) :
    evalTokens limit levels (token :: tokens) s = evalTokens limit levels tokens s' := by
  rw [evalTokens_eq, evalTokens_eq]
  exact bind_of_ok (StackStep.onLine_of_ok h token.line)

/-- The first token that fails ends the evaluation, and its failure is on its line. -/
theorem evalTokens_cons_of_error {limit levels : Nat} {token : Token} {s s' : Stack} {cause : Cause}
    (h : evalToken limit (levelBelow? limit levels) token.text s = .error cause s') (tokens : List Token) :
    evalTokens limit levels (token :: tokens) s = .error { line := token.line, cause } s' := by
  rw [evalTokens_eq]
  exact bind_of_error (StackStep.onLine_of_error h token.line)

end StackLang
