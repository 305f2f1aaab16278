import StackLang.Program
import StackLang.Proofs.Simulation

/-!
# Evaluation is safe

Whatever is evaluated on a stack within its capacity leaves the stack within its capacity, also when it fails.
Only a stack that is full reports an overflow, and it reports its capacity. No failure is a fault of the
interpreter: every such fault is an outcome of its own, and none of them is reached from any source text.

The comparison behind this is that of a run with itself.
-/

namespace StackLang

/-- Whether a cause is a fault of the interpreter itself. -/
def Cause.isDefect : Cause → Bool
  | defect _ => true
  | _ => false

/-- Whether a stack accounts for the failure that has left it behind. -/
structure Cause.Justified (s : Stack) (cause : Cause) : Prop where
  not_defect : cause.isDefect = false
  full {limit : Nat} : cause = .stackOverflow limit → limit = s.capacity ∧ s.size = s.capacity

/-- Every stack accounts for an ordinary failure. -/
theorem Cause.justified_of_isOrdinary {cause : Cause} (h : cause.isOrdinary = true) (s : Stack) :
    cause.Justified s := by
  constructor
  · cases cause with
    | defect fault => cases h
    | _ => rfl
  · rintro limit rfl
    cases h

/-- Whether a stack has a given capacity and is within it. -/
structure Stack.Bounded (capacity : Nat) (s : Stack) : Prop where
  capacity_eq : s.capacity = capacity
  size_le : s.size ≤ capacity

/-- The comparison of a run with itself, on stacks within a capacity. -/
def Simulation.bounded (capacity : Nat) : Simulation where
  below := []
  Fits size k k' := k = capacity ∧ k' = capacity ∧ size ≤ capacity
  values := .all
  Excuses _ := False
  Matches s cause cause' := cause' = cause ∧ cause.Justified s
  fits_of_le hle h := ⟨h.1, h.2.1, Nat.le_trans hle h.2.2⟩
  fits_succ hroom h := by
    obtain ⟨rfl, rfl, _⟩ := h
    exact ⟨hroom, rfl, rfl, hroom⟩
  full {s t} hst hfull := by
    obtain ⟨hs, ht, hle⟩ := hst.fits
    have hsize : t.size = s.size := hst.size
    have hsame : t.capacity = s.capacity := ht.trans hs.symm
    refine .inr ⟨by omega, congrArg Cause.stackOverflow hsame, rfl, ?_⟩
    intro limit hlimit
    cases hlimit
    exact ⟨rfl, by omega⟩
  short := .inr ⟨rfl, fun s needed found => ⟨rfl, rfl, nofun⟩⟩
  ordinary s h := ⟨rfl, Cause.justified_of_isOrdinary h s⟩

/-- A bounded stack corresponds to itself. -/
theorem Stack.Bounded.stacks {capacity : Nat} {s : Stack} (h : s.Bounded capacity) :
    (Simulation.bounded capacity).Stacks s s where
  values := (List.append_nil _).symm
  fits := ⟨h.capacity_eq, h.capacity_eq, h.size_le⟩
  holds _ _ := trivial

/-- A stack that corresponds to another one is bounded. -/
theorem Simulation.bounded_of_stacks {capacity : Nat} {s t : Stack}
    (h : (Simulation.bounded capacity).Stacks s t) : s.Bounded capacity :=
  ⟨h.fits.1, h.fits.2.2⟩

/-- Running out of levels is no fault, and the two runs do so together. -/
theorem Simulation.bounded_depthsAgree (capacity limit levels : Nat) :
    (Simulation.bounded capacity).DepthsAgree limit levels limit levels :=
  .inr ⟨rfl, fun _ => ⟨rfl, rfl, nofun⟩⟩

/-! ## Calls -/

/-- An outcome on a bounded stack that is bounded too, and accounts for a failure. -/
def Outcome.Safe (capacity : Nat) : EStateM.Result (Located Cause) Stack Unit → Prop
  | .ok _ s => s.Bounded capacity
  | .error e s => s.Bounded capacity ∧ e.cause.Justified s

section

variable {capacity limit line : Nat} {s : Stack}

/-- A step on a line is safe if without the line it agrees with itself. -/
theorem Simulation.safe_of_eq_onLine {x : StackStep Unit} {y : LocatedStep Unit} (hy : y = x.onLine line)
    (hx : (Simulation.bounded capacity).Agrees x x) (hs : s.Bounded capacity) :
    Outcome.Safe capacity (y s) := by
  subst hy
  have hout := hx s s hs.stacks
  cases h : x s with
  | ok _ s' =>
    rw [h] at hout
    obtain ⟨_, _, _, hst⟩ := hout
    rw [StackStep.onLine_of_ok h]
    exact Simulation.bounded_of_stacks hst
  | error cause s' =>
    rw [h] at hout
    rcases hout with hexcused | ⟨_, _, _, hmatch, hst⟩
    · exact hexcused.elim
    · rw [StackStep.onLine_of_error h]
      exact ⟨Simulation.bounded_of_stacks hst, hmatch.2⟩

/-- Tokens are safe, one after another. -/
theorem evalTokens_safe (limit levels : Nat) (tokens : List Token) (hs : s.Bounded capacity) :
    Outcome.Safe capacity (evalTokens limit levels tokens s) := by
  have hdepths := Simulation.bounded_depthsAgree capacity limit levels
  have hout := Simulation.evalTokens_outcomes hdepths tokens hs.stacks
  cases h : evalTokens limit levels tokens s with
  | ok _ s' =>
    rw [h] at hout
    obtain ⟨_, _, hst⟩ := hout
    exact Simulation.bounded_of_stacks hst
  | error e s' =>
    rw [h] at hout
    rcases hout with hexcused | ⟨_, _, _, hmatch, hst⟩
    · exact hexcused.elim
    · exact ⟨Simulation.bounded_of_stacks hst, hmatch.2⟩

/-- Calls are safe on every level. -/
theorem Call.run_safe (levels : Nat) (c : Call) (hs : s.Bounded capacity) :
    Outcome.Safe capacity (c.run limit line levels s) := by
  have hbelow (levels : Nat) :=
    Simulation.belowAgrees_levelBelow? (Simulation.bounded_depthsAgree capacity limit levels)
  have hlevels (levels : Nat) := LocatedLevel.agrees_levelBelow? limit levels
  induction c generalizing line levels with
  | token text =>
    exact Simulation.safe_of_eq_onLine (evalTokenAt_eq limit levels line text)
      (Simulation.agrees_evalToken (hbelow levels) text) hs
  | program tokens => exact evalTokens_safe limit levels tokens hs
  | lambda literal =>
    exact Simulation.safe_of_eq_onLine (invokeAt_eq (hlevels levels) line literal)
      (Simulation.agrees_invoke (hbelow levels) fun _ _ => trivial) hs
  | binary op => exact Simulation.safe_of_eq_onLine (op.runAt_eq line) (Simulation.agrees_binary op) hs
  | unary op => exact Simulation.safe_of_eq_onLine (op.runAt_eq line) (Simulation.agrees_unary op) hs
  | stack word => exact Simulation.safe_of_eq_onLine (word.runAt_eq line) (Simulation.agrees_stackWord word) hs
  | control word =>
    refine Simulation.safe_of_eq_onLine (word.runAt_eq (hlevels levels) line) ?_ hs
    exact Simulation.agrees_word (hbelow levels) [] (.control word)
  | push v => exact Simulation.safe_of_eq_onLine (Stack.pushAt_eq line v) (Simulation.agrees_push trivial) hs
  | nested deeper line' call ih =>
    rw [Call.run]
    split
    · exact ih (levels - deeper)
    · exact ⟨hs, rfl, nofun⟩

end

/-! ## Programs -/

namespace Token

/-- Lines that cannot be cut into tokens leave a literal open. -/
theorem ofLines_error {line : Nat} {lines : List (List Char)} {e : Located ScanCause}
    (h : ofLines line lines = .error e) : ∃ literal, e.cause = .unterminated literal := by
  induction lines generalizing line with
  | nil => cases h
  | cons cs rest ih =>
    rw [ofLines, ofLine] at h
    cases hscan : scan cs with
    | error cause =>
      rw [hscan] at h
      cases h
      exact scan_error hscan
    | ok texts =>
      rw [hscan] at h
      cases hrest : ofLines (line + 1) rest with
      | error e' =>
        rw [hrest] at h
        cases h
        exact ih hrest
      | ok tokens =>
        rw [hrest] at h
        cases h

end Token

/-- Every program has a result, leaves a literal open, or fails in its evaluation. There is no other outcome:
none of the faults that the interpreter could have is reached. -/
theorem Program.result_without_defect (limits : Limits) (source : String) :
    (∃ values, result limits source = .ok values) ∨
      (∃ line literal, result limits source = .error (.scan ⟨line, .unterminated literal⟩)) ∨
      ∃ line cause, cause.isDefect = false ∧ result limits source = .error (.eval ⟨line, cause⟩) := by
  rw [result]
  cases htokens : Token.ofSource source with
  | error e =>
    obtain ⟨literal, hcause⟩ := Token.ofLines_error htokens
    exact .inr (.inl ⟨e.line, literal, by rw [← hcause]⟩)
  | ok tokens =>
    have hempty : (Stack.empty limits.stackSize).Bounded limits.stackSize := ⟨rfl, Nat.zero_le _⟩
    have hsafe := evalTokens_safe limits.depth limits.depth tokens hempty
    cases heval : evalTokens limits.depth limits.depth tokens (Stack.empty limits.stackSize) with
    | ok _ s => exact .inl ⟨s.toList, by simp only [heval]⟩
    | error e s =>
      rw [heval] at hsafe
      exact .inr (.inr ⟨e.line, e.cause, hsafe.2.not_defect, by simp only [heval]⟩)

end StackLang
