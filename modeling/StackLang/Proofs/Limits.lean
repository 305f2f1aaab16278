import StackLang.Program
import StackLang.Proofs.Scanning
import StackLang.Proofs.Simulation

/-!
# Limits only cut runs short

A program that does not run into one of its limits has the same outcome under all larger limits. Running into
a limit is the only way in which the limits can be noticed.
-/

namespace StackLang

/-- Whether a cause is a limit on nesting or on the size of the stack. -/
def Cause.isLimit : Cause → Bool
  | stackOverflow _ | recursionLimit _ => true
  | _ => false

/-- The comparison of a run with the same run under larger limits. -/
def Simulation.widening : Simulation where
  below := []
  Fits _ capacity capacity' := capacity ≤ capacity'
  values := .all
  Excuses cause := cause.isLimit = true
  Matches _ cause cause' := cause' = cause
  fits_of_le _ h := h
  fits_succ hroom h := ⟨Nat.lt_of_lt_of_le hroom h, h⟩
  full _ _ := .inl rfl
  short := .inr ⟨rfl, fun _ _ _ => rfl⟩
  ordinary _ _ := rfl

/-- The empty stacks of two capacities correspond. -/
theorem Simulation.widening_stacks_empty {capacity capacity' : Nat} (h : capacity ≤ capacity') :
    widening.Stacks (Stack.empty capacity) (Stack.empty capacity') where
  values := rfl
  fits := h
  holds _ _ := trivial

/-- A program that does not run into a limit has the same outcome under larger limits. -/
theorem Program.result_of_larger_limits {limits limits' : Limits} (source : String)
    (hdepth : limits.depth ≤ limits'.depth) (hsize : limits.stackSize ≤ limits'.stackSize)
    (hlimit : ∀ e, result limits source = .error (.eval e) → e.cause.isLimit = false) :
    result limits' source = result limits source := by
  unfold result at hlimit ⊢
  cases htokens : Token.ofSource source with
  | error e => rfl
  | ok tokens =>
    have hdepths : Simulation.widening.DepthsAgree limits.depth limits.depth limits'.depth limits'.depth :=
      .inl ⟨hdepth, rfl⟩
    have hout := Simulation.evalTokens_outcomes hdepths tokens (Simulation.widening_stacks_empty hsize)
    rw [htokens] at hlimit
    cases hs : evalTokens limits.depth limits.depth tokens (Stack.empty limits.stackSize) with
    | ok _ s =>
      rw [hs] at hout
      obtain ⟨t, ht, hst⟩ := hout
      have hvalues : t.values = s.values := by rw [hst.values]; exact List.append_nil _
      simp only [ht, hs, Stack.toList, hvalues]
    | error e s =>
      rw [hs] at hout
      rcases hout with hexcused | ⟨cause, t, ht, rfl, _⟩
      · have hnot : e.cause.isLimit = false := hlimit e (by simp only [hs])
        exact absurd (hexcused.symm.trans hnot) (by decide)
      · simp only [ht, hs]

/-- A program that uses up one level and two places gives the same values when there is more of both. -/
theorem Program.result_of_larger_limits_dup :
    result { depth := 1, stackSize := 2 } "7\n'DUP\nEVAL" = .ok [.integer 7, .integer 7] ∧
      result { depth := 2, stackSize := 3 } "7\n'DUP\nEVAL" = .ok [.integer 7, .integer 7] := by
  have hseven : Token.scan ['7'] = .ok ["7"] := Token.scan_single (by decide) rfl
  have hdup : Token.scan ['\'', 'D', 'U', 'P'] = .ok ["'DUP"] := Token.scan_single (by decide) rfl
  have heval : Token.scan ['E', 'V', 'A', 'L'] = .ok ["EVAL"] := Token.scan_single (by decide) rfl
  have hlines : Text.lines "7\n'DUP\nEVAL".toList = [['7'], ['\'', 'D', 'U', 'P'], ['E', 'V', 'A', 'L']] := rfl
  have htokens : Token.ofSource "7\n'DUP\nEVAL" = .ok [⟨"7", 1⟩, ⟨"'DUP", 2⟩, ⟨"EVAL", 3⟩] := by
    simp only [Token.ofSource, hlines, Token.ofLines, Token.ofLine, hseven, hdup, heval]
    rfl
  have hresult : result { depth := 1, stackSize := 2 } "7\n'DUP\nEVAL" = .ok [.integer 7, .integer 7] := by
    rw [result, htokens]
    rfl
  refine ⟨hresult, ?_⟩
  rw [← hresult]
  apply result_of_larger_limits
  · decide
  · decide
  · intro e he
    rw [hresult] at he
    cases he

end StackLang
