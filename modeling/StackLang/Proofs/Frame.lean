import StackLang.Proofs.Simulation

/-!
# What lies below the stack does not matter

A program that runs on a stack runs in the same way on that stack put on top of other values, and leaves
these values alone. Only a run that finds too few values can go on differently. The values underneath take
up room, so the larger stack has to hold as many more, and an overflow reports the larger limit.
-/

namespace StackLang

/-- A stack on top of other values, given bottom first, with additional room for them. -/
def Stack.onto (below : List Value) (s : Stack) : Stack :=
  Stack.ofList (s.capacity + below.length) (s.values ++ below.reverse)

/-- Listed from the bottom, the values underneath come first. -/
theorem Stack.toList_onto (below : List Value) (s : Stack) : (s.onto below).toList = below ++ s.toList := by
  simp [onto, toList, ofList]

/-- Whether a cause is a stack that holds too few values. -/
def Cause.isUnderflow : Cause → Bool
  | stackUnderflow _ _ => true
  | _ => false

/-- A cause as it is reported where the stack may hold `room` values more. -/
def Cause.withRoom (room : Nat) : Cause → Cause
  | stackOverflow limit => stackOverflow (limit + room)
  | cause => cause

/-- A cause that is not an overflow is reported as it is. -/
theorem Cause.withRoom_of_isOrdinary {cause : Cause} (h : cause.isOrdinary = true) (room : Nat) :
    cause.withRoom room = cause := by
  cases cause with
  | stackOverflow limit => cases h
  | _ => rfl

/-- The comparison of a run with the same run on top of other values. -/
def Simulation.frame (below : List Value) : Simulation where
  below := below.reverse
  Fits _ capacity capacity' := capacity' = capacity + below.length
  values := .all
  Excuses cause := cause.isUnderflow = true
  Matches _ cause cause' := cause' = cause.withRoom below.length
  fits_of_le _ h := h
  fits_succ hroom h := by
    rw [h, List.length_reverse]
    exact ⟨Nat.add_lt_add_right hroom _, rfl⟩
  full hst hfull := by
    refine .inr ⟨?_, congrArg Cause.stackOverflow hst.fits⟩
    rw [hst.size, hst.fits, List.length_reverse]
    exact Nat.add_le_add_right hfull _
  short := .inl fun _ _ => rfl
  ordinary _ h := (Cause.withRoom_of_isOrdinary h _).symm

/-- A stack corresponds to itself on top of other values. -/
theorem Simulation.frame_stacks_onto (below : List Value) (s : Stack) :
    (frame below).Stacks s (s.onto below) where
  values := rfl
  fits := rfl
  holds _ _ := trivial

/-- Nothing but the stack on top of the other values corresponds to a stack. -/
theorem Simulation.eq_onto_of_frame_stacks {below : List Value} {s t : Stack}
    (h : (frame below).Stacks s t) : t = s.onto below :=
  Stack.ext h.fits h.values

/-- A program that succeeds on a stack does so on top of other values, and a program that fails other than
by an underflow fails there in the same way. The other values stay as they are. -/
theorem evalTokens_onto (limit levels : Nat) (tokens : List Token) (s : Stack) (below : List Value) :
    (∀ s', evalTokens limit levels tokens s = .ok () s' →
      evalTokens limit levels tokens (s.onto below) = .ok () (s'.onto below)) ∧
    ∀ e s', evalTokens limit levels tokens s = .error e s' → e.cause.isUnderflow = false →
      evalTokens limit levels tokens (s.onto below) =
        .error { e with cause := e.cause.withRoom below.length } (s'.onto below) := by
  have hdepths : (Simulation.frame below).DepthsAgree limit levels limit levels := .inr ⟨rfl, fun _ => rfl⟩
  have hout := Simulation.evalTokens_outcomes hdepths tokens (Simulation.frame_stacks_onto below s)
  constructor
  · intro s' hs
    rw [hs] at hout
    obtain ⟨t', ht, hst'⟩ := hout
    rw [ht, Simulation.eq_onto_of_frame_stacks hst']
  · intro e s' hs hcause
    rw [hs] at hout
    rcases hout with hexcused | ⟨cause', t', ht, hmatch, hst'⟩
    · exact absurd (hexcused.symm.trans hcause) (by decide)
    · rw [ht, Simulation.eq_onto_of_frame_stacks hst', hmatch]

/-- Two values change places above a third one, and a value too many is refused at the larger limit. -/
theorem evalTokens_onto_roll :
    (evalTokens 4 4 [⟨"2", 1⟩, ⟨"ROLL", 1⟩] (.ofList 3 [.integer 7, .boolean true]) =
        .ok () (.ofList 3 [.boolean true, .integer 7]) ∧
      evalTokens 4 4 [⟨"2", 1⟩, ⟨"ROLL", 1⟩] ((Stack.ofList 3 [.integer 7, .boolean true]).onto [.string "low"]) =
        .ok () ((Stack.ofList 3 [.boolean true, .integer 7]).onto [.string "low"])) ∧
    (evalTokens 4 4 [⟨"2", 1⟩, ⟨"DUP", 2⟩] (.ofList 3 [.integer 7, .boolean true]) =
        .error ⟨2, .stackOverflow 3⟩ (.ofList 3 [.integer 2, .integer 7, .boolean true]) ∧
      evalTokens 4 4 [⟨"2", 1⟩, ⟨"DUP", 2⟩] ((Stack.ofList 3 [.integer 7, .boolean true]).onto [.string "low"]) =
        .error ⟨2, .stackOverflow 4⟩
          ((Stack.ofList 3 [.integer 2, .integer 7, .boolean true]).onto [.string "low"])) :=
  ⟨⟨rfl, (evalTokens_onto 4 4 _ _ [.string "low"]).1 _ rfl⟩,
    ⟨rfl, (evalTokens_onto 4 4 _ _ [.string "low"]).2 ⟨2, .stackOverflow 3⟩ _ rfl rfl⟩⟩

end StackLang
