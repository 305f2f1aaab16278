import StackLang.Proofs.DepthCounter
import StackLang.Proofs.Safety

/-!
# Sessions

A session is a sequence of calls on one machine, which go on after failures. However it went, the stack is
within its capacity, and the next call is answered as on a fresh machine that holds the same values.

For a machine that is handed levels this is no surprise, since it keeps nothing but its stack. So the same is
said of a machine that counts how deep it is, where a call that fails inside nested evaluations could leave
the number raised: its sessions are those of the other machine, with the number at zero between calls.
-/

namespace StackLang

/-! ## Machines that count -/

/-- Carries out a call and counts the depth. -/
def Call.count (limit : Nat) : (line fuel : Nat) → Call → CountedStep Unit
  | line, fuel, token text => Counted.withFuel limit line fuel text
  | _, fuel, program tokens => tokens.forM fun token => Counted.withFuel limit token.line fuel token.text
  | line, fuel, lambda literal => Counted.invoke limit (fun line => Counted.withFuel limit line fuel) line literal
  | line, _, binary op => Counted.step (op.runAt line)
  | line, _, unary op => Counted.step (op.runAt line)
  | line, _, stack word => Counted.step (word.runAt line)
  | line, fuel, control word =>
    Counted.controlWord limit (fun line => Counted.withFuel limit line fuel) line word
  | line, _, push v => Counted.step (Stack.pushAt line v)
  | line, fuel, nested levels line' call =>
    Nat.repeat (Counted.nested limit line) levels (call.count limit line' fuel)

/-- A stack with a depth that runs under limits. -/
structure CountingMachine where
  limits : Limits
  state : CountedStack

/-- Makes a call on a line, with fuel for one token more than the limit on nesting. -/
def CountingMachine.call (m : CountingMachine) (line : Nat) (c : Call) : Except Halt Unit × CountingMachine :=
  match c.count m.limits.depth line (m.limits.depth + 1) m.state with
  | .ok _ state => (.ok (), { m with state })
  | .error halt state => (.error halt, { m with state })

/-- A counting machine after calls, each with its line and made whether or not the ones before have failed. -/
def CountingMachine.after (m : CountingMachine) (history : List (Nat × Call)) : CountingMachine :=
  history.foldl (fun m (line, c) => (m.call line c).2) m

/-- A nested call is followed as its call is that many levels deeper, if there are so many. -/
theorem Counted.follows_repeat_nested {limit line deeper : Nat} {x : Nat → LocatedStep Unit}
    {y : CountedStep Unit} (hxy : ∀ {depth levels}, depth + levels = limit → Follows depth (x levels) y)
    {depth levels : Nat} (hdepth : depth + levels = limit) :
    Follows depth
      (if deeper ≤ levels then x (levels - deeper) else throw { line, cause := .recursionLimit limit })
      (Nat.repeat (nested limit line) deeper y) := by
  induction deeper generalizing depth levels with
  | zero => exact hxy hdepth
  | succ deeper ih =>
    cases levels with
    | zero => exact follows_nested_of_le (Nat.le_of_eq hdepth.symm) _
    | succ levels =>
      have hdeeper := ih (show depth + 1 + levels = limit by omega)
      simp only [Nat.succ_le_succ_iff, Nat.succ_sub_succ]
      exact hdeeper.nested_of_lt (by omega)

/-- Calls are followed at every depth, if there is fuel for one token more than the limit. -/
theorem Call.follows_count {limit line fuel depth levels : Nat} (hdepth : depth + levels = limit)
    (hfuel : limit < fuel) (c : Call) :
    Counted.Follows depth (c.run limit line levels) (c.count limit line fuel) := by
  have hbelow {depth levels : Nat} (h : depth + levels = limit) : Counted.BelowFollows limit depth
      (locatedLevelBelow? limit levels) fun line => Counted.withFuel limit line fuel :=
    Counted.belowFollows_levelBelow? Counted.follows_withFuel h (by omega)
  induction c generalizing line depth levels with
  | token text => exact Counted.follows_withFuel hdepth (by omega) line text
  | program tokens =>
    have hlevels : levels < fuel := by omega
    exact Counted.follows_forM (fun token => Counted.follows_withFuel hdepth hlevels token.line token.text) tokens
  | lambda literal => exact Counted.follows_invoke (hbelow hdepth) literal
  | control word => exact Counted.follows_controlWord (hbelow hdepth) word
  | binary op | unary op | stack word | push v => exact Counted.follows_step _
  | nested deeper line' call ih => exact Counted.follows_repeat_nested ih hdepth

namespace Machine

/-- A machine that holds some values, given top first. -/
def holding (limits : Limits) (values : List Value) : Machine where
  limits
  stack := Stack.ofList limits.stackSize values

/-- A machine after calls, each with its line and made whether or not the ones before have failed. -/
def after (m : Machine) (history : List (Nat × Call)) : Machine :=
  history.foldl (fun m (line, c) => (m.call line c).2) m

/-- The machine that counts, between calls. -/
def counting (m : Machine) : CountingMachine where
  limits := m.limits
  state := { stack := m.stack, depth := 0 }

/-- The answer that a machine that counts should give. -/
def countingAnswer : Except (Located Cause) Unit × Machine → Except Halt Unit × CountingMachine
  | (.ok _, m) => (.ok (), m.counting)
  | (.error e, m) => (.error (.failed e), m.counting)

/-- A machine that counts answers a call as the machine by levels does, and is back at depth zero. -/
theorem counting_call (m : Machine) (line : Nat) (c : Call) :
    m.counting.call line c = countingAnswer (m.call line c) := by
  have hrun : c.count m.limits.depth line (m.limits.depth + 1) m.counting.state =
      Counted.atDepth 0 (c.run m.limits.depth line m.limits.depth m.stack) :=
    Call.follows_count (Nat.zero_add _) (Nat.lt_succ_self _) c m.stack
  unfold CountingMachine.call call
  rw [show m.counting.limits = m.limits from rfl, hrun]
  cases c.run m.limits.depth line m.limits.depth m.stack <;> rfl

/-- The sessions of the two machines go alike. -/
theorem counting_after (m : Machine) (history : List (Nat × Call)) :
    m.counting.after history = (m.after history).counting := by
  induction history generalizing m with
  | nil => rfl
  | cons made history ih =>
    have hcall : (m.counting.call made.1 made.2).2 = (m.call made.1 made.2).2.counting := by
      rw [counting_call]
      rcases m.call made.1 made.2 with ⟨_ | _, _⟩ <;> rfl
    change (m.counting.call made.1 made.2).2.after history = _
    rw [hcall]
    exact ih _

/-! ## Stacks in sessions -/

/-- Whether a machine's stack has the capacity that its limits say, and is within it. -/
def Bounded (m : Machine) : Prop := m.stack.Bounded m.limits.stackSize

/-- A machine that holds no more values than its limits allow is bounded. -/
theorem bounded_holding {limits : Limits} {values : List Value} (h : values.length ≤ limits.stackSize) :
    (holding limits values).Bounded := ⟨rfl, h⟩

/-- A bounded machine has nothing to it but its limits and values. -/
theorem Bounded.eq_holding {m : Machine} (h : m.Bounded) : m = holding m.limits m.stack.values := by
  obtain ⟨limits, stack⟩ := m
  have hstack : stack = Stack.ofList limits.stackSize stack.values := Stack.ext h.capacity_eq rfl
  rw [holding, ← hstack]

/-- Calls do not change the limits. -/
theorem limits_call (m : Machine) (line : Nat) (c : Call) : (m.call line c).2.limits = m.limits := by
  unfold call
  cases c.run m.limits.depth line m.limits.depth m.stack <;> rfl

/-- Sessions do not change the limits. -/
theorem limits_after (m : Machine) (history : List (Nat × Call)) : (m.after history).limits = m.limits := by
  induction history generalizing m with
  | nil => rfl
  | cons made history ih => exact (ih _).trans (limits_call m made.1 made.2)

/-- A call on a bounded machine leaves its stack within the capacity, and the stack accounts for a failure. -/
theorem Bounded.safe_call {m : Machine} (h : m.Bounded) (line : Nat) (c : Call) :
    (m.call line c).2.stack.Bounded m.limits.stackSize ∧
      ∀ e, (m.call line c).1 = .error e → e.cause.Justified (m.call line c).2.stack := by
  have hsafe : Outcome.Safe m.limits.stackSize (c.run m.limits.depth line m.limits.depth m.stack) :=
    Call.run_safe m.limits.depth c h
  unfold call
  cases hrun : c.run m.limits.depth line m.limits.depth m.stack with
  | ok _ s =>
    rw [hrun] at hsafe
    refine ⟨hsafe, ?_⟩
    rintro _ ⟨⟩
  | error e s =>
    rw [hrun] at hsafe
    refine ⟨hsafe.1, ?_⟩
    rintro _ ⟨⟩
    exact hsafe.2

/-- A call keeps a machine bounded. -/
theorem Bounded.call {m : Machine} (h : m.Bounded) (line : Nat) (c : Call) : (m.call line c).2.Bounded := by
  rw [Bounded, limits_call]
  exact (h.safe_call line c).1

/-- A session keeps a machine bounded. -/
theorem Bounded.after {m : Machine} (h : m.Bounded) (history : List (Nat × Call)) :
    (m.after history).Bounded := by
  induction history generalizing m with
  | nil => exact h
  | cons made history ih => exact ih (h.call made.1 made.2)

/-- After any session the next call leaves no more values than the limit allows, reports an overflow only with
this limit and a full stack, and is answered as on a fresh machine with the same values. A machine that counts
its depth gives the same answers, after the same session and fresh. -/
theorem call_after_session {limits : Limits} {values : List Value} (hroom : values.length ≤ limits.stackSize)
    (history : List (Nat × Call)) (line : Nat) (c : Call) :
    let m := (holding limits values).after history
    let counted := (holding limits values).counting.after history
    let fresh := holding limits m.stack.values
    (m.call line c).2.stack.size ≤ limits.stackSize ∧
      (∀ e limit, (m.call line c).1 = .error e → e.cause = .stackOverflow limit →
        limit = limits.stackSize ∧ (m.call line c).2.stack.size = limits.stackSize) ∧
      m.call line c = fresh.call line c ∧
      counted.call line c = fresh.counting.call line c ∧
      counted.call line c = countingAnswer (m.call line c) := by
  intro m counted fresh
  have hbounded : m.Bounded := (bounded_holding hroom).after history
  have hlimits : m.limits = limits := limits_after _ history
  have hfresh : m = fresh := by
    have hm := hbounded.eq_holding
    rwa [hlimits] at hm
  have hcounted : counted = m.counting := counting_after _ history
  obtain ⟨hstack, hjustified⟩ := hbounded.safe_call line c
  rw [hlimits] at hstack
  refine ⟨hstack.size_le, ?_, by rw [← hfresh], by rw [hcounted, ← hfresh], ?_⟩
  · intro e limit he hoverflow
    have hfull := (hjustified e he).full hoverflow
    rwa [hstack.capacity_eq] at hfull
  · rw [hcounted]
    exact counting_call m line c

/-- A call that runs into the limit on nesting leaves only its stack behind. With room for one value, one more is
taken after it, and another one refused. -/
theorem call_after_session_refused :
    let limits : Limits := { depth := 1, stackSize := 1 }
    let forced : Nat × Call := (9, .nested 1 2 (.control .eval))
    let m := (holding limits [.symbol "EVAL"]).after [forced, (3, .push (.integer 7))]
    let counted := (holding limits [.symbol "EVAL"]).counting.after [forced, (3, .push (.integer 7))]
    ((holding limits [.symbol "EVAL"]).call forced.1 forced.2).1 = .error ⟨2, .recursionLimit 1⟩ ∧
      (m.call 4 (.push (.integer 8))).1 = .error ⟨4, .stackOverflow 1⟩ ∧
      (m.call 4 (.push (.integer 8))).2.stack.size = 1 ∧
      counted.call 4 (.push (.integer 8)) = (holding limits [.integer 7]).counting.call 4 (.push (.integer 8)) := by
  intro limits forced m counted
  have hroom : [Value.symbol "EVAL"].length ≤ limits.stackSize := Nat.le_refl 1
  obtain ⟨-, hfull, -, hfresh, -⟩ :=
    call_after_session hroom [forced, (3, .push (.integer 7))] 4 (.push (.integer 8))
  exact ⟨rfl, rfl, (hfull ⟨4, .stackOverflow 1⟩ 1 rfl rfl).2, hfresh⟩

end Machine

end StackLang
