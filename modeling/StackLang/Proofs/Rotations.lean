import StackLang.Proofs.ExactIntegers
import StackLang.Proofs.Parameters

/-!
# Rotating the top of the stack

The two rotations of the top `n` values are inverse to each other, and `n` of either in a row change nothing. One moves
the lowest of these values to the top and the other moves the top value below the rest of them. The order of the others
and everything below stay as they are.

The words that rearrange the stack are rotations, so the same holds for them: what `ROLL` has done `ROLLD` undoes, and
`SWAP` and `ROT` are undone by repeating them. The count of a rotation is put on the stack and taken off again, for
which there has to be room.
-/

namespace StackLang

/-- Takes a step a number of times. -/
def StackStep.times (step : StackStep Unit) : Nat → StackStep Unit
  | 0 => pure ()
  | k + 1 => do
    step
    times step k

namespace StackStep

variable {step back : StackStep Unit} {k : Nat} {s s' : Stack}

/-- Of several steps that succeed, the first one leaves the stack that the others start with. -/
theorem exists_of_times_succ (h : step.times (k + 1) s = .ok () s') :
    ∃ s₁, step s = .ok () s₁ ∧ step.times k s₁ = .ok () s' := by
  cases hstep : step s with
  | ok _ s₁ =>
    rw [times, bind_of_ok hstep] at h
    exact ⟨s₁, rfl, h⟩
  | error cause s₁ =>
    rw [times, bind_of_error hstep] at h
    cases h

/-- One more step may as well be the last one. -/
theorem times_succ_of_ok (h : step.times k s = .ok () s') : step.times (k + 1) s = step s' := by
  induction k generalizing s with
  | zero =>
    cases h
    exact congrFun (bind_pure step) _
  | succ k ih =>
    obtain ⟨s₁, hstep, hrest⟩ := exists_of_times_succ h
    rw [times, bind_of_ok hstep]
    exact ih hrest

/-- Steps are undone one by one, the last one first. -/
theorem times_undo (hback : ∀ {s s'}, step s = .ok () s' → back s' = .ok () s) (h : step.times k s = .ok () s') :
    back.times k s' = .ok () s := by
  induction k generalizing s with
  | zero =>
    cases h
    rfl
  | succ k ih =>
    obtain ⟨s₁, hstep, hrest⟩ := exists_of_times_succ h
    rw [times_succ_of_ok (ih hrest), hback hstep]

end StackStep

namespace Stack

/-! ## Rotations of known values -/

/-- Enough values can be moved up. -/
theorem rotateUp_of_le {n : Nat} {s : Stack} (h : n ≤ s.size) :
    rotateUp n s = .ok () (s.rearrangeTop n lastToFront length_lastToFront) := by
  rw [rotateUp_apply, if_neg (Nat.not_lt.mpr h)]

/-- Enough values can be moved down. -/
theorem rotateDown_of_le {n : Nat} {s : Stack} (h : n ≤ s.size) :
    rotateDown n s = .ok () (s.rearrangeTop n firstToEnd length_firstToEnd) := by
  rw [rotateDown_apply, if_neg (Nat.not_lt.mpr h)]

/-- Moving up brings the last of the top values to the front. -/
theorem rotateUp_of_values {n : Nat} {s : Stack} {front below : List Value} {v : Value}
    (hs : s.values = front ++ v :: below) (hn : front.length + 1 = n) :
    rotateUp n s = .ok () (ofList s.capacity (v :: front ++ below)) := by
  have hsplit : s.values = (front ++ [v]) ++ below := by simp [hs]
  have hlength : n = (front ++ [v]).length := by simp [hn]
  have henough : n ≤ s.size := by
    rw [s.size_eq, hsplit, List.length_append, ← hlength]
    exact Nat.le_add_right n _
  have hvalues : (s.rearrangeTop n lastToFront length_lastToFront).values = v :: front ++ below := by
    simp only [rearrangeTop, hsplit, hlength, List.take_left, List.drop_left]
    simp [lastToFront]
  rw [rotateUp_of_le henough]
  exact congrArg (EStateM.Result.ok ()) (Stack.ext rfl hvalues)

/-- Moving down brings the first of the top values to their end. -/
theorem rotateDown_of_values {n : Nat} {s : Stack} {front below : List Value} {v : Value}
    (hs : s.values = v :: front ++ below) (hn : front.length + 1 = n) :
    rotateDown n s = .ok () (ofList s.capacity (front ++ v :: below)) := by
  have hlength : n = (v :: front).length := by simp [hn]
  have henough : n ≤ s.size := by
    rw [s.size_eq, hs, List.length_append, ← hlength]
    exact Nat.le_add_right n _
  have hvalues : (s.rearrangeTop n firstToEnd length_firstToEnd).values = front ++ v :: below := by
    simp only [rearrangeTop, hs, hlength, List.take_left, List.drop_left]
    simp [firstToEnd]
  rw [rotateDown_of_le henough]
  exact congrArg (EStateM.Result.ok ()) (Stack.ext rfl hvalues)

/-- Moving up among no values changes nothing. -/
theorem rotateUp_zero (s : Stack) : rotateUp 0 s = .ok () s := by
  rw [rotateUp_of_le (Nat.zero_le _)]
  exact congrArg (EStateM.Result.ok ()) (Stack.ext rfl (by simp [rearrangeTop, lastToFront]))

/-- Moving down among no values changes nothing. -/
theorem rotateDown_zero (s : Stack) : rotateDown 0 s = .ok () s := by
  rw [rotateDown_of_le (Nat.zero_le _)]
  exact congrArg (EStateM.Result.ok ()) (Stack.ext rfl (by simp [rearrangeTop, firstToEnd]))

/-! ## Rotations that undo each other -/

/-- Moving the last element to the front and the first one to the end changes nothing. -/
theorem firstToEnd_lastToFront (front : List Value) : firstToEnd (lastToFront front) = front := by
  rcases List.eq_nil_or_concat front with rfl | ⟨rest, v, rfl⟩
  · rfl
  · simp [lastToFront, firstToEnd]

/-- Moving the first element to the end and the last one to the front changes nothing. -/
theorem lastToFront_firstToEnd (front : List Value) : lastToFront (firstToEnd front) = front := by
  cases front with
  | nil => rfl
  | cons v rest => simp [lastToFront, firstToEnd]

section

variable {n : Nat} {s s' : Stack}

/-- Rearranging the top values is undone by rearranging them back. -/
theorem rearrangeTop_rearrangeTop {f g : List Value → List Value} (hf : ∀ front, (f front).length = front.length)
    (hg : ∀ front, (g front).length = front.length) (hback : ∀ front, g (f front) = front) (h : n ≤ s.size) :
    (s.rearrangeTop n f hf).rearrangeTop n g hg = s := by
  have hlength : (f (s.values.take n)).length = n := by
    rw [hf, List.length_take, ← s.size_eq, Nat.min_eq_left h]
  refine Stack.ext rfl ?_
  simp only [rearrangeTop, List.take_left' hlength, List.drop_left' hlength, hback, List.take_append_drop]

/-- A step that rearranges the top values is undone by a step that rearranges them back. -/
theorem undo_of_rearrangeTop {x y : StackStep Unit} {f g : List Value → List Value}
    {hf : ∀ front, (f front).length = front.length} {hg : ∀ front, (g front).length = front.length}
    (hx : ∀ s, x s = if s.size < n then .error (.stackUnderflow n s.size) s else .ok () (s.rearrangeTop n f hf))
    (hy : ∀ s, y s = if s.size < n then .error (.stackUnderflow n s.size) s else .ok () (s.rearrangeTop n g hg))
    (hback : ∀ front, g (f front) = front) (h : x s = .ok () s') : y s' = .ok () s := by
  rw [hx] at h
  split at h
  · cases h
  · rename_i henough
    cases h
    have henough' : ¬ (s.rearrangeTop n f hf).size < n := henough
    rw [hy, if_neg henough', rearrangeTop_rearrangeTop hf hg hback (Nat.not_lt.mp henough)]

/-- Moving down undoes moving up. -/
theorem rotateDown_of_rotateUp (h : rotateUp n s = .ok () s') : rotateDown n s' = .ok () s :=
  undo_of_rearrangeTop (rotateUp_apply n) (rotateDown_apply n) firstToEnd_lastToFront h

/-- Moving up undoes moving down. -/
theorem rotateUp_of_rotateDown (h : rotateDown n s = .ok () s') : rotateUp n s' = .ok () s :=
  undo_of_rearrangeTop (rotateDown_apply n) (rotateUp_apply n) lastToFront_firstToEnd h

end

/-! ## Repeated rotations -/

/-- Moving down as often as there are values in the upper of two parts brings this part below the other. -/
theorem times_rotateDown {n : Nat} {s : Stack} {upper lower below : List Value}
    (hs : s.values = upper ++ lower ++ below) (hn : upper.length + lower.length = n) :
    (rotateDown n).times upper.length s = .ok () (ofList s.capacity (lower ++ upper ++ below)) := by
  induction upper generalizing s lower with
  | nil => exact congrArg (EStateM.Result.ok ()) (Stack.ext rfl (by simpa [ofList] using hs))
  | cons v upper ih =>
    have hstep : rotateDown n s = .ok () (ofList s.capacity ((upper ++ lower) ++ v :: below)) := by
      refine rotateDown_of_values hs ?_
      rw [List.length_append, ← hn, List.length_cons, Nat.add_right_comm]
    have hrest : (ofList s.capacity ((upper ++ lower) ++ v :: below)).values = upper ++ (lower ++ [v]) ++ below := by
      simp [ofList]
    have hlength : upper.length + (lower ++ [v]).length = n := by
      rw [← hn, List.length_append, List.length_singleton, List.length_cons]
      omega
    rw [List.length_cons, StackStep.times, bind_of_ok hstep, ih hrest hlength]
    simp [ofList]

/-- Moving down through all of the top values changes nothing. -/
theorem times_rotateDown_self {n : Nat} {s : Stack} (hn : n ≤ s.size) : (rotateDown n).times n s = .ok () s := by
  have hs : s.values = s.values.take n ++ [] ++ s.values.drop n := by simp
  have hlength : (s.values.take n).length = n := by rw [List.length_take, ← s.size_eq, Nat.min_eq_left hn]
  have hrun : (rotateDown n).times (s.values.take n).length s =
      .ok () (ofList s.capacity ([] ++ s.values.take n ++ s.values.drop n)) := times_rotateDown hs (by simp [hlength])
  rw [hlength] at hrun
  rw [hrun]
  exact congrArg (EStateM.Result.ok ()) (Stack.ext rfl (by simp [ofList]))

/-- Moving up through all of the top values changes nothing. -/
theorem times_rotateUp_self {n : Nat} {s : Stack} (hn : n ≤ s.size) : (rotateUp n).times n s = .ok () s :=
  StackStep.times_undo rotateUp_of_rotateDown (times_rotateDown_self hn)

/-- What rotating the top `n` values of a stack comes to, in both directions. Values are given with the bottom first. -/
structure Rotations (n : Nat) (s up down : Stack) : Prop where
  rotateUp_eq : rotateUp n s = .ok () up
  rotateDown_eq : rotateDown n s = .ok () down
  rotateDown_up : rotateDown n up = .ok () s
  rotateUp_down : rotateUp n down = .ok () s
  /-- The `n`-th value from the top goes to the top. -/
  toList_up {below above : List Value} {v : Value} :
    s.toList = below ++ v :: above → above.length + 1 = n → up.toList = below ++ above ++ [v]
  /-- The top value goes to the `n`-th position from the top. -/
  toList_down {below above : List Value} {v : Value} :
    s.toList = below ++ above ++ [v] → above.length + 1 = n → down.toList = below ++ v :: above
  eq_of_zero : n = 0 → up = s ∧ down = s
  times_rotateUp : (rotateUp n).times n s = .ok () s
  times_rotateDown : (rotateDown n).times n s = .ok () s

/-- The top values of a stack can be rotated in both directions. -/
theorem exists_rotations {n : Nat} {s : Stack} (hn : n ≤ s.size) : ∃ up down, Rotations n s up down := by
  have hup := rotateUp_of_le hn
  have hdown := rotateDown_of_le hn
  refine ⟨_, _, hup, hdown, rotateDown_of_rotateUp hup, rotateUp_of_rotateDown hdown, ?_, ?_, ?_,
    times_rotateUp_self hn, times_rotateDown_self hn⟩
  · intro below above v hs habove
    have hvalues : s.values = above.reverse ++ v :: below.reverse := by
      simpa [toList] using congrArg List.reverse hs
    have hrun := rotateUp_of_values hvalues (by simpa using habove)
    rw [(EStateM.Result.ok.inj (hup.symm.trans hrun)).2]
    simp [toList, ofList]
  · intro below above v hs habove
    have hvalues : s.values = v :: above.reverse ++ below.reverse := by
      simpa [toList] using congrArg List.reverse hs
    have hrun := rotateDown_of_values hvalues (by simpa using habove)
    rw [(EStateM.Result.ok.inj (hdown.symm.trans hrun)).2]
    simp [toList, ofList]
  · rintro rfl
    have hup' := (EStateM.Result.ok.inj (hup.symm.trans (rotateUp_zero s))).2
    have hdown' := (EStateM.Result.ok.inj (hdown.symm.trans (rotateDown_zero s))).2
    exact ⟨hup', hdown'⟩

end Stack

/-! ## Words that restore the stack -/

/-- Whether tokens with the given texts make one stack into another, on whatever lines and levels. -/
def Leaves (texts : List String) (s s' : Stack) : Prop :=
  ∀ limit levels tokens, tokens.map Token.text = texts → evalTokens limit levels tokens s = .ok () s'

namespace Leaves

variable {texts : List String} {text : String} {s s₁ s' : Stack}

/-- No tokens leave the stack as it is. -/
theorem nil (s : Stack) : Leaves [] s s := by
  intro limit levels tokens htexts
  rw [List.map_eq_nil_iff.mp htexts]
  rfl

/-- The first token leaves the stack that the others start with. -/
theorem cons (hfirst : ∀ limit below?, evalToken limit below? text s = .ok () s₁) (hrest : Leaves texts s₁ s') :
    Leaves (text :: texts) s s' := by
  intro limit levels tokens htexts
  obtain ⟨token, others, rfl, rfl, hothers⟩ := List.map_eq_cons_iff.mp htexts
  rw [evalTokens_cons_of_ok (hfirst limit (levelBelow? limit levels)), hrest limit levels others hothers]

/-- A token that is repeated takes its step repeatedly. -/
theorem replicate {step : StackStep Unit} (htext : ∀ limit below?, evalToken limit below? text = step) {k : Nat}
    (h : step.times k s = .ok () s') : Leaves (List.replicate k text) s s' := by
  induction k generalizing s with
  | zero =>
    cases h
    exact nil _
  | succ k ih =>
    obtain ⟨s₁, hstep, hrest⟩ := StackStep.exists_of_times_succ h
    exact cons (fun limit below? => by rw [htext, hstep]) (ih hrest)

end Leaves

/-- A number that is an integer has the same text as the integer. -/
theorem Integer.text_eq_decimal {k : Integer} {n : Nat} (h : k.toInt = n) : k.text = Text.decimal n := by
  have hnot : ¬ k < 0 := by
    rw [lt_zero_iff, h]
    omega
  rw [text, if_neg hnot, h, Int.natAbs_natCast, Text.decimal]

section

variable {k : Integer} {n : Nat} {s : Stack} (hk : k.toInt = n)
include hk

/-- Evaluating a number puts it on the stack, if there is room. -/
theorem evalToken_decimal (hroom : s.size < s.capacity) (limit : Nat) (below? : Option Level) :
    evalToken limit below? (Text.decimal n) s = .ok () (s.cons (.integer k)) := by
  rw [← Integer.text_eq_decimal hk, evalToken_integerText, Stack.push_apply, if_neg (Nat.not_le.mpr hroom)]

/-- A number on top of the stack is taken off as a count. -/
theorem popCount_cons : popCount (s.cons (.integer k)) = .ok n s := by
  have hcount : k.toCount = .ok n := by
    have hnot : ¬ k < 0 := by
      rw [Integer.lt_zero_iff, hk]
      omega
    rw [Integer.toCount, if_neg hnot, hk, Int.toNat_natCast]
  rw [popCount, bind_of_ok (Stack.pop_cons _ s)]
  change StackStep.lift k.toCount s = _
  rw [hcount, StackStep.lift_ok]

/-- Rolling is undone by rolling down with the same count. -/
theorem leaves_roll_rollDown (hn : n ≤ s.size) (hroom : s.size < s.capacity) :
    Leaves [Text.decimal n, "ROLL", Text.decimal n, "ROLLD"] s s := by
  have hup := Stack.rotateUp_of_le hn
  have hdown := Stack.rotateDown_of_rotateUp hup
  have hroll (limit : Nat) (below? : Option Level) :
      evalToken limit below? "ROLL" (s.cons (.integer k)) = .ok () (s.rearrangeTop n _ Stack.length_lastToFront) :=
    (bind_of_ok (popCount_cons hk)).trans hup
  have hrollDown (limit : Nat) (below? : Option Level) :
      evalToken limit below? "ROLLD" ((s.rearrangeTop n _ Stack.length_lastToFront).cons (.integer k)) = .ok () s :=
    (bind_of_ok (popCount_cons hk)).trans hdown
  -- The rotation has left as much room for the second count as there was for the first one.
  have hagain := evalToken_decimal (s := s.rearrangeTop n _ Stack.length_lastToFront) hk hroom
  exact .cons (evalToken_decimal hk hroom) (.cons hroll (.cons hagain (.cons hrollDown (.nil s))))

end

/-- A copy of the top value is dropped again. -/
theorem leaves_dup_drop {s : Stack} (hsome : 1 ≤ s.size) (hroom : s.size < s.capacity) :
    Leaves ["DUP", "DROP"] s s := by
  obtain ⟨v, rest, hvalues⟩ : ∃ v rest, s.values = v :: rest := by
    refine List.exists_cons_of_ne_nil ?_
    rw [← List.length_pos_iff, ← s.size_eq]
    exact hsome
  have hpeek : Stack.peek s = .ok v s := by
    rw [Stack.peek_apply, hvalues]
  have hdup (limit : Nat) (below? : Option Level) : evalToken limit below? "DUP" s = .ok () (s.cons v) := by
    refine (bind_of_ok hpeek).trans ?_
    rw [Stack.push_apply, if_neg (Nat.not_le.mpr hroom)]
  have hdrop (limit : Nat) (below? : Option Level) : evalToken limit below? "DROP" (s.cons v) = .ok () s := by
    change (Stack.pop >>= fun _ => pure ()) (s.cons v) = _
    exact bind_of_ok (Stack.pop_cons v s)
  exact .cons hdup (.cons hdrop (.nil s))

/-- The two rotations of the top values undo each other, and as many of either as there are values change nothing. Words
that rearrange the stack are undone in the same way: rolling by rolling down with the same count, and swapping, rotating
and copying by what takes them back. The count has to be an integer, which the number of values in any memory is. -/
theorem rotations_restore {n : Nat} {s : Stack} (hn : n ≤ s.size) :
    (∃ up down, Stack.Rotations n s up down) ∧
      (s.size < s.capacity → Integer.Fits n → Leaves [Text.decimal n, "ROLL", Text.decimal n, "ROLLD"] s s) ∧
      (2 ≤ s.size → Leaves ["SWAP", "SWAP"] s s) ∧
      (3 ≤ s.size → Leaves ["ROT", "ROT", "ROT"] s s) ∧
      (s.size < s.capacity → 1 ≤ s.size → Leaves ["DUP", "DROP"] s s) := by
  refine ⟨Stack.exists_rotations hn, fun hroom hfits => ?_, fun htwo => ?_, fun hthree => ?_, fun hroom hsome => ?_⟩
  · have hk : (Int64.ofIntLE n hfits.1 hfits.2).toInt = n := Int64.toInt_ofIntLE
    exact leaves_roll_rollDown hk hn hroom
  · exact Leaves.replicate (fun _ _ => rfl) (Stack.times_rotateUp_self htwo)
  · exact Leaves.replicate (fun _ _ => rfl) (Stack.times_rotateUp_self hthree)
  · exact leaves_dup_drop hsome hroom

/-- The third of four values goes to the top and back, and a lambda is moved and not invoked. -/
theorem rotations_restore_third :
    let s := Stack.ofList 5 [.integer 4, .symbol "DUP", .lambda "\x7b0 | 1\x7d", .string "bottom"]
    (∃ up, Stack.rotateUp 3 s = .ok () up ∧
      up.toList = [.string "bottom", .symbol "DUP", .integer 4, .lambda "\x7b0 | 1\x7d"] ∧
      Stack.rotateDown 3 up = .ok () s) ∧
      Leaves ["3", "ROLL", "3", "ROLLD"] s s ∧ Leaves ["ROT", "ROT", "ROT"] s s := by
  intro s
  have hs : s.toList = [.string "bottom"] ++ .lambda "\x7b0 | 1\x7d" :: [.symbol "DUP", .integer 4] := rfl
  have hn : 3 ≤ s.size := by decide
  obtain ⟨⟨up, down, h⟩, hroll, -, hrot, -⟩ := rotations_restore hn
  refine ⟨⟨up, h.rotateUp_eq, h.toList_up hs rfl, h.rotateDown_up⟩, ?_, hrot hn⟩
  exact hroll (by decide) (by decide)

end StackLang
