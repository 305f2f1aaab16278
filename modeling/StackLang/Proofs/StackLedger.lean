import StackLang.Proofs.FailingTokens
import StackLang.Proofs.Safety

/-!
# A ledger of the stack

The operations on a stack are entered in a ledger, which keeps the values that were put on the stack and those that were
taken off and handed out. Whatever the operations are, the ledger balances: the values that were put on are those that
were handed out together with those that are still there. The stack stays within its capacity, and an operation that
fails leaves it as it was.

Taking several values off at once is taking them off one by one, except that nothing is taken off if there are too few.
-/

namespace StackLang.Stack

/-- An operation on a stack, with its arguments. -/
inductive Action where
  | push (v : Value)
  | pop
  | popPair
  | popN (n : Nat)
  | peek
  | rotateUp (n : Nat)
  | rotateDown (n : Nat)
  | require (n : Nat)

namespace Action

/-- What an operation gives. -/
abbrev Answer : Action → Type
  | pop | peek => Value
  | popPair => Value × Value
  | popN _ => List Value
  | push _ | rotateUp _ | rotateDown _ | require _ => Unit

/-- Carries out an operation. -/
def run : (action : Action) → StackStep action.Answer
  | push v => Stack.push v
  | pop => Stack.pop
  | popPair => Stack.popPair
  | popN n => Stack.popN n
  | peek => Stack.peek
  | rotateUp n => Stack.rotateUp n
  | rotateDown n => Stack.rotateDown n
  | require n => Stack.require n

/-- The values that an operation puts on the stack. -/
def pushed : Action → List Value
  | push v => [v]
  | _ => []

/-- The values that an operation with the given answer takes off the stack and hands out. -/
def taken : (action : Action) → action.Answer → List Value
  | pop, v => [v]
  | popPair, (left, right) => [left, right]
  | popN _, popped => popped
  | push _, _ | peek, _ | rotateUp _, _ | rotateDown _, _ | require _, _ => []

end Action

/-- A stack, the values that were put on it and the values that were taken off it. -/
structure Ledger where
  stack : Stack
  pushed : List Value
  taken : List Value

namespace Ledger

/-- The ledger of a stack without values. -/
def new (capacity : Nat) : Ledger where
  stack := Stack.empty capacity
  pushed := []
  taken := []

/-- Carries out an operation and enters what it has done. A failed one has done nothing but what is seen on the
stack. -/
def enter (ledger : Ledger) (action : Action) : Ledger :=
  match action.run ledger.stack with
  | .ok answer stack =>
    { stack, pushed := ledger.pushed ++ action.pushed, taken := ledger.taken ++ action.taken answer }
  | .error _ stack => { ledger with stack }

/-- The ledger after operations, each made whether or not the ones before have failed. -/
def after (capacity : Nat) (actions : List Action) : Ledger := actions.foldl enter (new capacity)

end Ledger

/-- Takes values off one by one, and gives them in this order. -/
def pops : Nat → StackStep (List Value)
  | 0 => return []
  | n + 1 => do
    let v ← pop
    return v :: (← pops n)

/-! ## Single operations -/

/-- Reading the top value fails before it changes the stack. -/
theorem failsIntact_peek : StackStep.FailsIntact peek := by
  intro s cause s' hrun
  rw [peek_apply] at hrun
  split at hrun <;> cases hrun
  rfl

/-- Removing a pair fails before it changes the stack. -/
theorem failsIntact_popPair : StackStep.FailsIntact popPair := by
  intro s cause s' hrun
  rw [popPair_apply] at hrun
  split at hrun <;> cases hrun
  rfl

/-- An operation that fails leaves the stack as it was. -/
theorem Action.run_failsIntact (action : Action) : StackStep.FailsIntact action.run := by
  cases action with
  | push v => exact .push v
  | pop => exact .pop
  | popPair => exact failsIntact_popPair
  | popN n => exact .of_check (popN_apply n)
  | peek => exact failsIntact_peek
  | rotateUp n => exact .rotateUp n
  | rotateDown n => exact .rotateDown n
  | require n => exact .of_check (require_apply n)

/-- Whether a stack comes from another one by putting some values on and taking some off, within the capacity. -/
structure Exchanges (pushed taken : List Value) (s s' : Stack) : Prop where
  bounded {capacity : Nat} : s.Bounded capacity → s'.Bounded capacity
  perm : (pushed ++ s.values).Perm (taken ++ s'.values)

namespace Exchanges

variable {n : Nat} {s s' : Stack} {pushed taken taken' : List Value}

/-- Nothing is exchanged if the stack stays. -/
theorem refl (s : Stack) : Exchanges [] [] s s where
  bounded h := h
  perm := .refl _

/-- A value may be put on if there is room. -/
theorem cons (v : Value) (h : s.size < s.capacity) : Exchanges [v] [] s (s.cons v) where
  bounded hs := ⟨hs.capacity_eq, hs.capacity_eq ▸ h⟩
  perm := .refl _

/-- The top values are taken off. -/
theorem dropTop (n : Nat) (s : Stack) : Exchanges [] (s.values.take n) s (s.dropTop n) where
  bounded hs := ⟨hs.capacity_eq, Nat.le_trans (Nat.sub_le _ _) hs.size_le⟩
  perm := by simp [Stack.dropTop]

/-- Rearranging values exchanges none. -/
theorem rearrangeTop {f : List Value → List Value} (hf : ∀ front, (f front).length = front.length)
    (hperm : ∀ front, (f front).Perm front) (n : Nat) (s : Stack) : Exchanges [] [] s (s.rearrangeTop n f hf) where
  bounded hs := ⟨hs.capacity_eq, hs.size_le⟩
  perm := by
    have hvalues := (hperm (s.values.take n)).append_right (s.values.drop n)
    rw [List.take_append_drop] at hvalues
    exact hvalues.symm

/-- A step that checks the stack first exchanges what it does once it goes on. -/
theorem of_check {α : Type} {x : StackStep α} {refused : Prop} [Decidable refused] {cause : Cause} {a b : α}
    {s₁ : Stack} (taken : α → List Value) (hx : x s = if refused then .error cause s else .ok a s₁)
    (hexchange : ¬ refused → Exchanges pushed (taken a) s s₁) (hrun : x s = .ok b s') :
    Exchanges pushed (taken b) s s' := by
  rw [hx] at hrun
  split at hrun
  · cases hrun
  · rename_i hgo
    cases hrun
    exact hexchange hgo

/-- The values that are taken off may be given in any order. -/
theorem of_perm (h : Exchanges pushed taken s s') (htaken : taken.Perm taken') : Exchanges pushed taken' s s' where
  bounded := h.bounded
  perm := h.perm.trans (htaken.append_right s'.values)

end Exchanges

/-- An operation that succeeds exchanges what it puts on for what it hands out. -/
theorem Action.exchanges {action : Action} {answer : action.Answer} {s s' : Stack}
    (h : action.run s = .ok answer s') : Exchanges action.pushed (action.taken answer) s s' := by
  cases action with
  | push v => exact .of_check (push v).taken (push_apply v s) (fun hroom => .cons v (Nat.not_le.mp hroom)) h
  | popN n => exact .of_check (popN n).taken (popN_apply n s) (fun _ => .dropTop n s) h
  | rotateUp n =>
    have hmove := Exchanges.rearrangeTop length_lastToFront lastToFront_perm n s
    exact .of_check (rotateUp n).taken (rotateUp_apply n s) (fun _ => hmove) h
  | rotateDown n =>
    have hmove := Exchanges.rearrangeTop length_firstToEnd firstToEnd_perm n s
    exact .of_check (rotateDown n).taken (rotateDown_apply n s) (fun _ => hmove) h
  | require n => exact .of_check (require n).taken (require_apply n s) (fun _ => .refl s) h
  | pop =>
    change Stack.pop s = _ at h
    rw [pop_apply] at h
    split at h
    · cases h
    · rename_i v rest hvalues
      cases h
      have hdrop := Exchanges.dropTop 1 s
      rwa [hvalues] at hdrop
  | popPair =>
    change Stack.popPair s = _ at h
    rw [popPair_apply] at h
    split at h
    · rename_i right left rest hvalues
      cases h
      have hdrop := Exchanges.dropTop 2 s
      rw [hvalues] at hdrop
      exact hdrop.of_perm (.swap left right [])
    · cases h
  | peek =>
    change Stack.peek s = _ at h
    rw [peek_apply] at h
    split at h
    · cases h
    · cases h
      exact .refl s

/-! ## Histories of operations -/

namespace Ledger

/-- Whether a ledger balances: its stack is within a capacity, and the values that were put on are those that were taken
off together with those that are still there. -/
structure Balances (capacity : Nat) (ledger : Ledger) : Prop where
  bounded : ledger.stack.Bounded capacity
  perm : ledger.pushed.Perm (ledger.taken ++ ledger.stack.values)

/-- A new ledger balances. -/
theorem balances_new (capacity : Nat) : (new capacity).Balances capacity where
  bounded := ⟨rfl, Nat.zero_le _⟩
  perm := .nil

/-- A ledger that balances does so after every operation. -/
theorem Balances.enter {capacity : Nat} {ledger : Ledger} (h : ledger.Balances capacity) (action : Action) :
    (ledger.enter action).Balances capacity := by
  unfold Ledger.enter
  cases hrun : action.run ledger.stack with
  | error cause s' =>
    rw [action.run_failsIntact _ _ _ hrun]
    exact h
  | ok answer s' =>
    have hstep := Action.exchanges hrun
    refine ⟨hstep.bounded h.bounded, ?_⟩
    calc
      (ledger.pushed ++ action.pushed).Perm ((ledger.taken ++ ledger.stack.values) ++ action.pushed) :=
        h.perm.append_right action.pushed
      _ = ledger.taken ++ (ledger.stack.values ++ action.pushed) := List.append_assoc _ _ _
      List.Perm _ (ledger.taken ++ (action.pushed ++ ledger.stack.values)) :=
        List.perm_append_comm.append_left ledger.taken
      List.Perm _ (ledger.taken ++ (action.taken answer ++ s'.values)) := hstep.perm.append_left ledger.taken
      _ = ledger.taken ++ action.taken answer ++ s'.values := (List.append_assoc _ _ _).symm

/-- A ledger balances after any operations. -/
theorem balances_after (capacity : Nat) (actions : List Action) : (after capacity actions).Balances capacity := by
  have hfold {ledger : Ledger} (h : ledger.Balances capacity) : (actions.foldl enter ledger).Balances capacity := by
    induction actions generalizing ledger with
    | nil => exact h
    | cons action actions ih => exact ih (h.enter action)
  exact hfold (balances_new capacity)

end Ledger

/-! ## Taking several values off -/

section

variable {n : Nat} {s : Stack}

/-- Values that are there can be taken off one by one. -/
theorem pops_of_le (h : n ≤ s.size) : pops n s = .ok (s.values.take n) (s.dropTop n) := by
  induction n generalizing s with
  | zero => rfl
  | succ n ih =>
    cases hvalues : s.values with
    | nil => simp [s.size_eq, hvalues] at h
    | cons v rest =>
      have hpop : pop s = .ok v (s.dropTop 1) := by rw [pop_apply, hvalues]
      have hbelow : (s.dropTop 1).values = rest := by simp [dropTop, hvalues]
      have hrest : pops n (s.dropTop 1) = .ok (rest.take n) ((s.dropTop 1).dropTop n) := by
        rw [ih (Nat.le_sub_of_add_le h), hbelow]
      have hdrop : (s.dropTop 1).dropTop n = s.dropTop (n + 1) := Stack.ext rfl (by simp [dropTop])
      rw [pops, bind_of_ok hpop, bind_of_ok hrest, hdrop]
      rfl

/-- Taking off one by one fails if there are too few values. -/
theorem exists_pops_error (h : s.size < n) : ∃ cause s', pops n s = .error cause s' := by
  induction n generalizing s with
  | zero => cases h
  | succ n ih =>
    cases hvalues : s.values with
    | nil =>
      have hpop : pop s = .error (.stackUnderflow 1 0) s := by rw [pop_apply, hvalues]
      exact ⟨_, _, bind_of_error hpop⟩
    | cons v rest =>
      have hpop : pop s = .ok v (s.dropTop 1) := by rw [pop_apply, hvalues]
      have hsize : (s.dropTop 1).size < n := by
        have hpositive : 0 < s.size := by simp [s.size_eq, hvalues]
        change s.size - 1 < n
        omega
      obtain ⟨cause, s', hrest⟩ := ih hsize
      refine ⟨cause, s', ?_⟩
      rw [pops, bind_of_ok hpop, bind_of_error hrest]

/-- Values can be taken off at once exactly if they are there. -/
theorem exists_popN_iff : (∃ popped s', popN n s = .ok popped s') ↔ n ≤ s.size := by
  rw [popN_apply]
  constructor
  · rintro ⟨popped, s', h⟩
    split at h
    · cases h
    · omega
  · intro h
    exact ⟨_, _, if_neg (Nat.not_lt.mpr h)⟩

/-- Taking values off at once gives what taking them off one by one gives. -/
theorem popN_eq_ok_iff {popped : List Value} {s' : Stack} : popN n s = .ok popped s' ↔ pops n s = .ok popped s' := by
  by_cases h : s.size < n
  · obtain ⟨cause, s₁, herror⟩ := exists_pops_error h
    rw [popN_apply, if_pos h, herror]
    simp
  · rw [popN_apply, if_neg h, pops_of_le (Nat.not_lt.mp h)]

end

/-- After any operations the stack is within its capacity, an operation that fails leaves it as it is, and the values
that were put on are those that were taken off together with those that are still there. Several values are taken off
exactly if they are there, and then as if one by one. -/
theorem Ledger.after_conserves (capacity : Nat) (actions : List Action) :
    let ledger := after capacity actions
    ledger.stack.values.length ≤ capacity ∧
      (∀ action cause s', Action.run action ledger.stack = .error cause s' → s' = ledger.stack) ∧
      ledger.pushed.Perm (ledger.taken ++ ledger.stack.values) ∧
      ∀ n, ((∃ popped s', popN n ledger.stack = .ok popped s') ↔ n ≤ ledger.stack.values.length) ∧
        ∀ popped s', popN n ledger.stack = .ok popped s' ↔ pops n ledger.stack = .ok popped s' := by
  intro ledger
  obtain ⟨hbounded, hperm⟩ := balances_after capacity actions
  rw [← ledger.stack.size_eq]
  refine ⟨hbounded.size_le, fun action => action.run_failsIntact ledger.stack, hperm, fun n => ?_⟩
  exact ⟨exists_popN_iff, fun popped s' => popN_eq_ok_iff⟩

/-- The third value finds no room. The rotation brings the first one to the top, so that it is taken off, and a pair is
then refused. -/
theorem Ledger.after_conserves_refused :
    let ledger := after 2 [.push (.integer 1), .push (.symbol "x"), .push (.integer 3), .rotateUp 2, .pop]
    (∃ s', popPair ledger.stack = .error (.stackUnderflow 2 1) s' ∧ s' = ledger.stack) ∧
      ledger.taken = [.integer 1] ∧
      [.integer 1, .symbol "x"].Perm (ledger.taken ++ ledger.stack.values) := by
  intro ledger
  have hrefused : Action.run .popPair ledger.stack = .error (.stackUnderflow 2 1) ledger.stack := rfl
  obtain ⟨-, hintact, hperm, -⟩ :=
    after_conserves 2 [.push (.integer 1), .push (.symbol "x"), .push (.integer 3), .rotateUp 2, .pop]
  exact ⟨⟨_, hrefused, hintact _ _ _ hrefused⟩, rfl, hperm⟩

end StackLang.Stack
