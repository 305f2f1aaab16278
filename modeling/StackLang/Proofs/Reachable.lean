import StackLang.Proofs.Simulation

/-!
# Values that a machine can come to hold

A machine is fed with tokens, one after another, and goes on after a failure with the stack that the failure
has left. If its stack starts within a class of values that evaluation does not leave, it stays within it,
whatever the tokens are. The comparison behind this is that of a run with itself.
-/

namespace StackLang

/-- Whether all values of a stack are in a class. -/
def Stack.Within (values : ValueClass) (s : Stack) : Prop := ∀ v ∈ s.values, values.Holds v

/-- The comparison of a run with itself, for values of a class. -/
def Simulation.self (values : ValueClass) : Simulation where
  below := []
  Fits _ capacity capacity' := capacity = capacity'
  values := values
  Excuses _ := False
  Matches _ cause cause' := cause' = cause
  fits_of_le _ h := h
  fits_succ hroom h := ⟨Nat.lt_of_lt_of_eq hroom h, h⟩
  full {s t} hst hfull := by
    refine .inr ⟨?_, congrArg Cause.stackOverflow hst.fits.symm⟩
    rw [← hst.fits, hst.size]
    exact Nat.le_add_right_of_le hfull
  short := .inr ⟨rfl, fun _ _ _ => rfl⟩
  ordinary _ _ := rfl

/-- A stack within the class corresponds to itself. -/
theorem Simulation.self_stacks {values : ValueClass} {s : Stack} (h : s.Within values) :
    (self values).Stacks s s where
  values := (List.append_nil _).symm
  fits := rfl
  holds := h

/-- What agrees with itself leads from a stack within the class to a stack within it, and its result has the property
that is agreed on. -/
theorem Simulation.within_of_agree {values : ValueClass} {α : Type} {Q : α → Prop} {x : StackStep α} {a : α}
    {s s' : Stack} (hx : (self values).Agree Q x x) (h : s.Within values) (hrun : x s = .ok a s') :
    Q a ∧ s'.Within values := by
  have hout := hx s s (self_stacks h)
  rw [hrun] at hout
  obtain ⟨ha, _, _, hst⟩ := hout
  exact ⟨ha, hst.holds⟩

/-- A level agrees with itself. -/
theorem Simulation.self_levelsAgree (values : ValueClass) {limit levels : Nat} {level : Level}
    (h : levelBelow? limit levels = some level) : (self values).LevelsAgree level level := by
  have hdepths : (self values).DepthsAgree limit levels limit levels := .inr ⟨rfl, fun _ => rfl⟩
  have hbelow := belowAgrees_levelBelow? hdepths
  rw [h] at hbelow
  exact hbelow

/-- A token leaves a stack within the class there, whether it succeeds or fails. -/
theorem evalToken_within (values : ValueClass) (limit levels : Nat) (text : String) {s : Stack}
    (h : s.Within values) :
    match evalToken limit (levelBelow? limit levels) text s with
    | .ok _ s' | .error _ s' => s'.Within values := by
  have hdepths : (Simulation.self values).DepthsAgree limit levels limit levels := .inr ⟨rfl, fun _ => rfl⟩
  have hout := Simulation.agrees_evalToken_levelBelow? hdepths text s s (Simulation.self_stacks h)
  cases hs : evalToken limit (levelBelow? limit levels) text s with
  | ok _ s' =>
    rw [hs] at hout
    obtain ⟨_, _, _, hst'⟩ := hout
    exact hst'.holds
  | error cause s' =>
    rw [hs] at hout
    rcases hout with hexcused | ⟨_, _, _, _, hst'⟩
    · exact hexcused.elim
    · exact hst'.holds

namespace Machine

/-- A machine after tokens, each of which is evaluated whether or not the ones before it have failed. -/
def afterTokens (m : Machine) (tokens : List Token) : Machine :=
  tokens.foldl (fun m token => (m.call token.line (.token token.text)).2) m

/-- A token that succeeds leaves a machine with its stack. -/
theorem call_token_of_ok {m : Machine} {text : String} {s : Stack}
    (h : evalToken m.limits.depth (levelBelow? m.limits.depth m.limits.depth) text m.stack = .ok () s)
    (line : Nat) : m.call line (.token text) = (.ok (), { m with stack := s }) := by
  simp only [call, Call.run, evalTokenAt_eq, StackStep.onLine_of_ok h]

/-- One token keeps a machine's stack within the class. -/
theorem within_call_token {values : ValueClass} {m : Machine} (h : m.stack.Within values) (token : Token) :
    (m.call token.line (.token token.text)).2.stack.Within values := by
  have hkept := evalToken_within values m.limits.depth m.limits.depth token.text h
  cases hs : evalToken m.limits.depth (levelBelow? m.limits.depth m.limits.depth) token.text m.stack with
  | ok _ s' =>
    rw [hs] at hkept
    rw [call_token_of_ok hs]
    exact hkept
  | error cause s' =>
    rw [hs] at hkept
    simp only [call, Call.run, evalTokenAt_eq, StackStep.onLine_of_error hs]
    exact hkept

/-- Any number of tokens keep a machine's stack within the class. -/
theorem within_afterTokens {values : ValueClass} {m : Machine} (h : m.stack.Within values)
    (tokens : List Token) : (m.afterTokens tokens).stack.Within values := by
  induction tokens generalizing m with
  | nil => exact h
  | cons token tokens ih => exact ih (within_call_token h token)

end Machine

end StackLang
