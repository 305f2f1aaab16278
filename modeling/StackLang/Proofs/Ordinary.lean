import StackLang.Evaluator
import StackLang.Proofs.LambdaGrammar
import StackLang.Proofs.Scanning

/-!
# Ordinary failures

A failure is ordinary if it lies in the texts and values at hand, and not in the stack, in the limits or in
the interpreter itself. Everything that evaluation computes apart from the stack fails in this way only:
reading literals, applying operators, and the conversions between them. In particular no operator reaches a
family that does not hold it, no rounding step leaves the range of integers, and no position lies outside
its list.
-/

namespace StackLang

/-- Whether a cause lies in the texts and values at hand. -/
def Cause.isOrdinary : Cause → Bool
  | stackUnderflow _ _ | stackOverflow _ | recursionLimit _ | defect _ => false
  | _ => true

/-- Whether a computation fails with ordinary causes only. -/
def FailsOrdinarily {α : Type} (x : Except Cause α) : Prop :=
  ∀ cause, x = .error cause → cause.isOrdinary = true

namespace FailsOrdinarily

variable {α β : Type}

/-- A result is no failure. -/
theorem ok (a : α) : FailsOrdinarily (.ok a) := by
  intro cause h
  cases h

/-- An ordinary cause can be given as a failure. -/
theorem error {cause : Cause} (h : cause.isOrdinary = true) :
    FailsOrdinarily (.error cause : Except Cause α) := by
  intro cause' heq
  cases heq
  exact h

/-- One ordinary computation after another is ordinary. -/
theorem bind {x : Except Cause α} {f : α → Except Cause β} (hx : FailsOrdinarily x)
    (hf : ∀ a, x = .ok a → FailsOrdinarily (f a)) : FailsOrdinarily (x >>= f) := by
  cases x with
  | ok a => exact hf a rfl
  | error cause => exact error (hx cause rfl)

/-- Ordinary computations on the elements of a list are ordinary together. -/
theorem mapM {f : α → Except Cause β} {as : List α} (hf : ∀ a ∈ as, FailsOrdinarily (f a)) :
    FailsOrdinarily (as.mapM f) := by
  induction as with
  | nil => exact ok []
  | cons a as ih =>
    rw [List.mapM_cons]
    refine bind (hf a List.mem_cons_self) fun b _ => ?_
    refine bind (ih fun a' ha' => hf a' (List.mem_cons_of_mem a ha')) fun bs _ => ?_
    exact ok (b :: bs)

/-- A result that an integer out of range makes missing is missing in an ordinary way. -/
theorem orOverflow (a? : Option α) : FailsOrdinarily (orOverflow a?) := by
  cases a? with
  | none => exact error rfl
  | some a => exact ok a

/-- A result that is there is not missing through a defect. -/
theorem orDefect {fault : Defect} {a? : Option α} (h : a?.isSome) : FailsOrdinarily (orDefect fault a?) := by
  obtain ⟨a, rfl⟩ := Option.isSome_iff_exists.mp h
  exact ok a

end FailsOrdinarily

/-! ## Integers -/

namespace Integer

/-- A difference in range is not missing. -/
theorem isSome_sub? {a b : Integer} (hlow : Int64.minValue.toInt ≤ a.toInt - b.toInt)
    (hhigh : a.toInt - b.toInt ≤ Int64.maxValue.toInt) : (a.sub? b).isSome := by
  rw [Int64.toInt_minValue] at hlow
  rw [Int64.toInt_maxValue] at hhigh
  have h : a.toBitVec.ssubOverflow b.toBitVec = false := by
    simp only [BitVec.ssubOverflow, Int64.toInt_toBitVec, Bool.or_eq_false_iff, decide_eq_false_iff_not]
    omega
  simp [sub?, h]

/-- A sum in range is not missing. -/
theorem isSome_add? {a b : Integer} (hlow : Int64.minValue.toInt ≤ a.toInt + b.toInt)
    (hhigh : a.toInt + b.toInt ≤ Int64.maxValue.toInt) : (a.add? b).isSome := by
  rw [Int64.toInt_minValue] at hlow
  rw [Int64.toInt_maxValue] at hhigh
  have h : a.toBitVec.saddOverflow b.toBitVec = false := by
    simp only [BitVec.saddOverflow, Int64.toInt_toBitVec, Bool.or_eq_false_iff, decide_eq_false_iff_not]
    omega
  simp [add?, h]

/-- A quotient that leaves a remainder is at most half of the dividend, so one less is still in range. -/
theorem isSome_sub?_one {a b : Integer} (hb : b ≠ 0) (hremainder : a % b ≠ 0) :
    ((a / b).sub? 1).isSome := by
  have hne : b ≠ -1 := by
    rintro rfl
    exact hremainder (by simp [← Int64.toInt_inj])
  have habs : 2 ≤ b.toInt.natAbs := by
    have hzero : b.toInt ≠ 0 := by simpa [← Int64.toInt_inj] using hb
    have hone : b.toInt.natAbs ≠ 1 := by
      intro h
      apply hremainder
      have hdvd : b.toInt ∣ a.toInt := Int.natAbs_dvd_natAbs.mp (by rw [h]; exact Nat.one_dvd _)
      simpa [← Int64.toInt_inj] using Int.tmod_eq_zero_of_dvd hdvd
    omega
  have hquotient : (a / b).toInt.natAbs ≤ 2 ^ 62 := by
    rw [Int64.toInt_div_of_ne_right a b hne, Int.natAbs_tdiv]
    have hdividend : a.toInt.natAbs ≤ 2 ^ 63 := by
      have := a.toInt_lt
      have := a.le_toInt
      omega
    calc a.toInt.natAbs / b.toInt.natAbs
      _ ≤ a.toInt.natAbs / 2 := Nat.div_le_div_left habs (by decide)
      _ ≤ 2 ^ 62 := by omega
  have hone : (1 : Integer).toInt = 1 := rfl
  apply isSome_sub?
  · rw [hone, Int64.toInt_minValue]
    omega
  · rw [hone, Int64.toInt_maxValue]
    omega

/-- Sums fail only with overflow. -/
theorem sum_ordinary (a b : Integer) : FailsOrdinarily (a.sum b) := .orOverflow _

/-- Differences fail only with overflow. -/
theorem difference_ordinary (a b : Integer) : FailsOrdinarily (a.difference b) := .orOverflow _

/-- Products fail only with overflow. -/
theorem product_ordinary (a b : Integer) : FailsOrdinarily (a.product b) := .orOverflow _

/-- The step from the quotient towards zero to the one towards minus infinity stays in range. -/
theorem floorDiv_ordinary (a b : Integer) : FailsOrdinarily (a.floorDiv b) := by
  unfold floorDiv
  split
  · exact .error rfl
  · rename_i hb
    refine .bind (.orOverflow _) fun quotient hquotient => ?_
    unfold quot? at hquotient
    split at hquotient
    · cases hquotient
    · rename_i hrange
      cases hquotient
      simp only [rem?, hrange]
      refine .bind (.ok (a % b)) fun remainder hremainder => ?_
      cases hremainder
      split
      · rename_i hround
        exact .orDefect (isSome_sub?_one hb hround.1)
      · exact .ok _

/-- The divisor is added only to a remainder of the opposite sign, which stays in range. -/
theorem floorMod_ordinary (a b : Integer) : FailsOrdinarily (a.floorMod b) := by
  unfold floorMod
  split
  · exact .error rfl
  · dsimp only
    generalize (a.rem? b).getD 0 = remainder
    split
    · rename_i hround
      apply FailsOrdinarily.orDefect
      have hsigns := hround.2
      simp only [Int64.lt_iff_toInt_lt, Int64.toInt_zero, ne_eq, eq_iff_iff] at hsigns
      have := remainder.toInt_lt
      have := remainder.le_toInt
      have := b.toInt_lt
      have := b.le_toInt
      apply isSome_add?
      · rw [Int64.toInt_minValue]
        omega
      · rw [Int64.toInt_maxValue]
        omega
    · exact .ok _

/-- Shifts fail only with overflow. -/
theorem shiftLeft_ordinary (a amount : Integer) : FailsOrdinarily (a.shiftLeft amount) := by
  unfold shiftLeft
  split
  · exact .ok _
  · exact .orOverflow _

/-- Shifts by a negated amount fail only with overflow. -/
theorem shiftRight_ordinary (a amount : Integer) : FailsOrdinarily (a.shiftRight amount) := by
  unfold shiftRight
  split
  · exact .bind (.orOverflow _) fun opposite _ => shiftLeft_ordinary a opposite
  · exact .ok _

/-- An integer fails to be a count in an ordinary way. -/
theorem toCount_ordinary (n : Integer) : FailsOrdinarily n.toCount := by
  unfold toCount
  split
  · exact .error rfl
  · exact .ok _

/-- An integer fails to be an exponent in an ordinary way. -/
theorem toExponent_ordinary (n : Integer) : FailsOrdinarily n.toExponent := by
  unfold toExponent
  split
  · exact .error rfl
  · split
    · exact .ok _
    · exact .error rfl

end Integer

/-! ## Operators -/

namespace Value

/-- A value fails to be a number in an ordinary way. -/
theorem real_ordinary (v : Value) : FailsOrdinarily v.real := by
  cases v <;> first | exact .ok _ | exact .error rfl

/-- A value fails to be an integer in an ordinary way. -/
theorem asInteger_ordinary (v : Value) : FailsOrdinarily v.asInteger := by
  cases v <;> first | exact .ok _ | exact .error rfl

/-- A value fails to be a truth value in an ordinary way. -/
theorem asBoolean_ordinary (v : Value) : FailsOrdinarily v.asBoolean := by
  cases v <;> first | exact .ok _ | exact .error rfl

end Value

namespace Operation

/-- The operators of arithmetic. -/
def isArithmetic (op : BinaryOp) : Prop := op = .add ∨ op = .sub ∨ op = .mul ∨ op = .div ∨ op = .mod

/-- An operator that does not apply fails in an ordinary way. -/
theorem mismatch_ordinary {α : Type} (op : BinaryOp) (left right : Value) :
    FailsOrdinarily (mismatch op left right : Except Cause α) := .error rfl

/-- Arithmetic on integers holds every operator of arithmetic. -/
theorem integerArithmetic_ordinary {op : BinaryOp} (hop : isArithmetic op) (a b : Integer) :
    FailsOrdinarily (integerArithmetic op a b) := by
  rcases hop with rfl | rfl | rfl | rfl | rfl
  · exact a.sum_ordinary b
  · exact a.difference_ordinary b
  · exact a.product_ordinary b
  · exact a.floorDiv_ordinary b
  · exact a.floorMod_ordinary b

/-- Arithmetic on floats holds every operator of arithmetic, and refuses a divisor of zero. -/
theorem floatArithmetic_ordinary {op : BinaryOp} (hop : isArithmetic op) (x y : Float) :
    FailsOrdinarily (floatArithmetic op x y) := by
  rcases hop with rfl | rfl | rfl | rfl | rfl <;> simp only [floatArithmetic]
  · exact .ok _
  · exact .ok _
  · exact .ok _
  · split
    · exact .error rfl
    · exact .ok _
  · split
    · exact .error rfl
    · exact .ok _

/-- Scalar arithmetic fails in an ordinary way. -/
theorem scalar_ordinary {op : BinaryOp} (hop : isArithmetic op) (left right : Value) :
    FailsOrdinarily (scalar op left right) := by
  unfold scalar
  split
  · exact .bind (integerArithmetic_ordinary hop _ _) fun _ _ => .ok _
  · split
    · exact .ok _
    · exact mismatch_ordinary _ _ _
  · split
    · refine .bind (Value.real_ordinary _) fun x _ => .bind (Value.real_ordinary _) fun y _ => ?_
      exact .bind (floatArithmetic_ordinary hop x y) fun _ _ => .ok _
    · exact mismatch_ordinary _ _ _

/-- Sums of products fail in an ordinary way. -/
theorem dot_ordinary (a b : IntVector) : FailsOrdinarily (IntVector.dot a b) := by
  unfold IntVector.dot
  generalize (0 : Integer) = total
  induction a.zip b generalizing total with
  | nil => exact .ok total
  | cons pair pairs ih =>
    rw [List.foldlM_cons]
    refine .bind ?_ fun total' _ => ih total'
    exact .bind (pair.1.product_ordinary pair.2) fun product _ => total.sum_ordinary product

/-- Products of matrices fail in an ordinary way. -/
theorem product_ordinary (a b : IntMatrix) : FailsOrdinarily (IntMatrix.product a b) :=
  .mapM fun row _ => .mapM fun column _ => dot_ordinary row column

/-- Sums and differences of entries fail in an ordinary way. -/
theorem entrywise_ordinary {op : BinaryOp} (hop : op = .add ∨ op = .sub) (a b : IntVector) :
    FailsOrdinarily (entrywise op a b) := by
  refine .mapM fun pair _ => ?_
  rcases hop with rfl | rfl
  · exact pair.1.sum_ordinary pair.2
  · exact pair.1.difference_ordinary pair.2

/-- Multiples of vectors fail in an ordinary way. -/
theorem scale_ordinary (a : IntVector) (k : Integer) : FailsOrdinarily (scale a k) :=
  .mapM fun x _ => x.product_ordinary k

/-- Quotients of vectors fail in an ordinary way. -/
theorem divide_ordinary (a : IntVector) (k : Integer) : FailsOrdinarily (divide a k) :=
  .mapM fun x _ => x.floorDiv_ordinary k

/-- Linear algebra fails in an ordinary way. -/
theorem linear_ordinary (op : BinaryOp) (left right : Value) : FailsOrdinarily (linear op left right) := by
  have hcase := linear_cases op left right
  generalize linear op left right = outcome at hcase
  cases hcase with
  | vectors hop => exact .bind (entrywise_ordinary hop _ _) fun _ _ => .ok _
  | dot => exact .bind (dot_ordinary _ _) fun _ _ => .ok _
  | scale | scaleFrom => exact .bind (scale_ordinary _ _) fun _ _ => .ok _
  | divide => exact .bind (divide_ordinary _ _) fun _ _ => .ok _
  | matrices hop => exact .bind (.mapM fun _ _ => entrywise_ordinary hop _ _) fun _ _ => .ok _
  | product => exact .bind (product_ordinary _ _) fun _ _ => .ok _
  | productVector => exact .bind (.mapM fun row _ => dot_ordinary row _) fun _ _ => .ok _
  | scaleRows | scaleRowsFrom => exact .bind (.mapM fun row _ => scale_ordinary row _) fun _ _ => .ok _
  | divideRows => exact .bind (.mapM fun row _ => divide_ordinary row _) fun _ _ => .ok _
  | mismatch => exact mismatch_ordinary _ _ _

/-- The terms of a cross product lie within vectors of length three. -/
theorem crossTerm_ordinary {a b : IntVector} (ha : a.length = 3) (hb : b.length = 3) {i j : Nat} (hi : i < 3)
    (hj : j < 3) : FailsOrdinarily (crossTerm a b i j) := by
  have hentry {entries : IntVector} (hlength : entries.length = 3) {k : Nat} (hk : k < 3) :
      FailsOrdinarily (orDefect .outOfBounds entries[k]?) := by
    apply FailsOrdinarily.orDefect
    rw [List.getElem?_eq_getElem (by omega)]
    rfl
  unfold crossTerm
  refine .bind (hentry ha hi) fun ai _ => .bind (hentry hb hj) fun bj _ => ?_
  refine .bind (ai.product_ordinary bj) fun first _ => ?_
  refine .bind (hentry ha hj) fun aj _ => .bind (hentry hb hi) fun bi _ => ?_
  exact .bind (aj.product_ordinary bi) fun second _ => first.difference_ordinary second

/-- Cross products fail in an ordinary way. -/
theorem cross_ordinary (left right : Value) : FailsOrdinarily (cross left right) := by
  unfold cross
  split
  · split
    · rename_i a b h
      obtain ⟨ha, hb⟩ := h
      refine .bind (crossTerm_ordinary ha hb (by decide) (by decide)) fun _ _ => ?_
      refine .bind (crossTerm_ordinary ha hb (by decide) (by decide)) fun _ _ => ?_
      exact .bind (crossTerm_ordinary ha hb (by decide) (by decide)) fun _ _ => .ok _
    · exact .error rfl
  · exact .error rfl

/-- One squaring step of a power with an exponent that is not zero. -/
theorem powerFrom_step {α : Type} (product : α → α → Except Cause α) (result square : α) {n : Nat}
    (hn : n ≠ 0) :
    powerFrom product result square n =
      (if n % 2 = 1 then product result square else .ok result) >>= fun result =>
        if n / 2 = 0 then .ok result
        else product square square >>= fun square => powerFrom product result square (n / 2) := by
  rw [powerFrom, dif_neg hn]
  by_cases hodd : n % 2 = 1
  · simp only [if_pos hodd]
    rfl
  · simp only [if_neg hodd]
    rfl

/-- A power fails as the products do that it is made of. -/
theorem powerFrom_ordinary {α : Type} {product : α → α → Except Cause α}
    (hproduct : ∀ a b, FailsOrdinarily (product a b)) (result square : α) (n : Nat) :
    FailsOrdinarily (powerFrom product result square n) := by
  induction n using Nat.strongRecOn generalizing result square with
  | ind n ih =>
    by_cases hn : n = 0
    · rw [powerFrom, dif_pos hn]
      exact .ok result
    · rw [powerFrom_step product result square hn]
      refine .bind ?_ fun result' _ => ?_
      · split
        · exact hproduct result square
        · exact .ok result
      · split
        · exact .ok result'
        · exact .bind (hproduct square square) fun square' _ => ih (n / 2) (by omega) result' square'

/-- Powers fail in an ordinary way. -/
theorem power_ordinary (base exponent : Value) : FailsOrdinarily (power base exponent) := by
  unfold power
  split
  · dsimp only
    split
    · refine .bind (Integer.toExponent_ordinary _) fun e _ => ?_
      exact .bind (powerFrom_ordinary product_ordinary _ _ e) fun _ _ => .ok _
    · exact .error rfl
  · split
    · split
      · refine .bind (Integer.toExponent_ordinary _) fun e _ => ?_
        exact .bind (powerFrom_ordinary Integer.product_ordinary _ _ e) fun _ _ => .ok _
      · exact .ok _
    · split
      · exact .bind (Value.real_ordinary _) fun _ _ => .bind (Value.real_ordinary _) fun _ _ => .ok _
      · exact mismatch_ordinary _ _ _

/-- Comparison holds the seven comparison operators. -/
theorem comparison_ordinary (op : BinaryOp) (left right : Value)
    (hop : op ∈ [.equal, .notEqual, .less, .greater, .lessEqual, .greaterEqual, .compare]) :
    FailsOrdinarily (comparison op left right) := by
  unfold comparison
  split
  · exact .ok _
  · exact .ok _
  · split
    · exact .error rfl
    · split <;> first | exact .ok _ | simp_all

/-- The bitwise operators hold the three connectives and the two shifts. -/
theorem bitwise_ordinary (op : BinaryOp) (left right : Value)
    (hop : op ∈ [.bitAnd, .bitOr, .bitXor, .shiftLeft, .shiftRight]) :
    FailsOrdinarily (bitwise op left right) := by
  unfold bitwise
  split
  · rename_i a b
    refine .bind ?_ fun _ _ => .ok _
    simp only [List.mem_cons, List.not_mem_nil, or_false] at hop
    rcases hop with rfl | rfl | rfl | rfl | rfl
    · exact .ok _
    · exact .ok _
    · exact .ok _
    · exact a.shiftLeft_ordinary b
    · exact a.shiftRight_ordinary b
  · split <;> first | exact .ok _ | exact mismatch_ordinary _ _ _
  · exact mismatch_ordinary _ _ _

end Operation

/-- Binary operators fail in an ordinary way. -/
theorem BinaryOp.apply_ordinary (op : BinaryOp) (left right : Value) :
    FailsOrdinarily (op.apply left right) := by
  have harithmetic (hop : Operation.isArithmetic op) :
      FailsOrdinarily (if left.isArray || right.isArray then Operation.linear op left right
        else Operation.scalar op left right) := by
    split
    · exact Operation.linear_ordinary op left right
    · exact Operation.scalar_ordinary hop left right
  have hcomparison := Operation.comparison_ordinary op left right
  have hbitwise := Operation.bitwise_ordinary op left right
  cases op with
  | add | sub | mul | div | mod => exact harithmetic (by simp [Operation.isArithmetic])
  | pow => exact Operation.power_ordinary left right
  | cross => exact Operation.cross_ordinary left right
  | equal | notEqual | greater | less | greaterEqual | lessEqual | compare =>
    exact hcomparison (by decide)
  | bitAnd | bitOr | bitXor | shiftLeft | shiftRight =>
    exact hbitwise (by decide)

/-- Unary operators fail in an ordinary way. -/
theorem UnaryOp.apply_ordinary (op : UnaryOp) (v : Value) : FailsOrdinarily (op.apply v) := by
  cases op with
  | not => exact .bind v.asBoolean_ordinary fun b _ => .ok _
  | complement => cases v <;> first | exact .ok _ | exact .error rfl

/-! ## Literals -/

namespace Token

/-- Scanning an array never counts below zero, and stops on a boundary of the line. -/
theorem arrayLength_spec (depth : Nat) (cs : List Char) :
    arrayLength (depth + 1) cs = .error (.unterminated .array) ∨
      ∃ length, Text.OnBoundary length cs ∧ arrayLength (depth + 1) cs = .ok length := by
  induction cs generalizing depth with
  | nil => exact .inl rfl
  | cons c cs ih =>
    have hnext (depth : Nat) :
        (arrayLength (depth + 1) cs).map (c.utf8Size + ·) = .error (.unterminated .array) ∨
          ∃ length, Text.OnBoundary length (c :: cs) ∧
            (arrayLength (depth + 1) cs).map (c.utf8Size + ·) = .ok length := by
      rcases ih depth with herror | ⟨length, hlength, hok⟩
      · exact .inl (by rw [herror]; rfl)
      · exact .inr ⟨c.utf8Size + length, hlength.cons c, by rw [hok]; rfl⟩
    unfold arrayLength
    split
    · exact hnext (depth + 1)
    · split
      · rename_i hclosing
        cases depth with
        | zero => exact .inr ⟨1, ⟨[c], cs, rfl, by rw [hclosing]; rfl⟩, rfl⟩
        | succ depth => exact hnext depth
      · exact hnext depth

/-- A token ends on a boundary of its line, unless it is left open. -/
theorem tokenLength_spec (first : Char) (cs : List Char) :
    (∃ literal, tokenLength first cs = .error (.unterminated literal)) ∨
      ∃ length, Text.OnBoundary length (first :: cs) ∧ tokenLength first cs = .ok length := by
  unfold tokenLength
  split
  · rename_i hquote
    unfold lengthThrough
    split
    · rename_i offset hoffset
      have hboundary := (Text.onBoundary_of_offset? rfl hoffset).2.cons '"'
      rw [hquote]
      exact .inr ⟨offset + 2, by rwa [Nat.add_comm] at hboundary, rfl⟩
    · exact .inl ⟨.string, rfl⟩
  · split
    · rename_i hopening
      rw [hopening, arrayLength_opening]
      rcases arrayLength_spec 0 cs with herror | ⟨length, hlength, hok⟩
      · exact .inl ⟨.array, by rw [herror]; rfl⟩
      · exact .inr ⟨1 + length, hlength.cons '[', by rw [hok]; rfl⟩
    · split
      · unfold lengthThrough
        split
        · rename_i offset hoffset
          exact .inr ⟨offset + 1, (Text.onBoundary_of_offset? rfl hoffset).2, rfl⟩
        · exact .inl ⟨.lambda, rfl⟩
      · refine .inr ⟨_, ?_, rfl⟩
        cases hoffset : Text.offset? Text.isBlank (first :: cs) with
        | none => exact ⟨first :: cs, [], (List.append_nil _).symm, rfl⟩
        | some offset =>
          obtain ⟨front, c, rest, -, -, hcs, rfl⟩ := Text.exists_append_of_offset? hoffset
          exact ⟨front, c :: rest, hcs, rfl⟩

/-- A line that cannot be cut into tokens leaves a literal open. -/
theorem scan_error {cs : List Char} {cause : ScanCause} (h : scan cs = .error cause) :
    ∃ literal, cause = .unterminated literal := by
  fun_induction scan cs generalizing cause with
  | case1 => cases h
  | case2 cs first rest _ cause' hlength =>
    cases h
    rcases tokenLength_spec first rest with ⟨literal, herror⟩ | ⟨_, _, hok⟩
    · rw [hlength] at herror
      cases herror
      exact ⟨literal, rfl⟩
    · rw [hlength] at hok
      cases hok
  | case3 cs first rest _ length hlength fault hcut =>
    rcases tokenLength_spec first rest with ⟨_, herror⟩ | ⟨_, hboundary, hok⟩
    · rw [hlength] at herror
      cases herror
    · rw [hlength] at hok
      cases hok
      obtain ⟨parts, hparts⟩ := Text.exists_cutAt_iff.mpr hboundary
      rw [hparts] at hcut
      cases hcut
  | case4 cs first rest _ length _ front tail _ _ cause' htail ih =>
    cases h
    exact ih htail
  | case5 => cases h

end Token

namespace Literal

/-- A literal that cannot be read is an ordinary failure. -/
theorem malformed_ordinary {α : Type} (literal : List Char) (malformation : Malformation) :
    FailsOrdinarily (malformed literal malformation : Except Cause α) := .error rfl

/-- Integers are read or too large. -/
theorem readInteger_ordinary (cs : List Char) : FailsOrdinarily (readInteger cs) := by
  unfold readInteger
  split
  · exact .ok _
  · exact .error rfl

/-- Entries fail in an ordinary way. -/
theorem readEntry_ordinary (literal entry : List Char) : FailsOrdinarily (readEntry literal entry) := by
  unfold readEntry
  split
  · split
    · exact .ok _
    · exact .error rfl
  · exact malformed_ordinary _ _

/-- Rows fail in an ordinary way. -/
theorem readRow_ordinary (literal row : List Char) : FailsOrdinarily (readRow literal row) := by
  refine .bind (.mapM fun entry _ => readEntry_ordinary literal (Text.trim entry)) fun entries _ => ?_
  split
  · exact malformed_ordinary _ _
  · exact .ok _

/-- A row is cut off before and behind its closing bracket, and both are boundaries. -/
theorem cutRow_ordinary (literal cs : List Char) : FailsOrdinarily (cutRow literal cs) := by
  unfold cutRow
  split
  · rename_i body
    split
    · exact malformed_ordinary _ _
    · rename_i close hclose
      obtain ⟨hbefore, hbehind⟩ := Text.onBoundary_of_offset? rfl hclose
      obtain ⟨parts, hrow⟩ := Text.exists_cutAt_iff.mpr hbefore
      obtain ⟨parts', hrest⟩ := Text.exists_cutAt_iff.mpr hbehind
      simp only [hrow, hrest]
      exact .ok _
  · exact malformed_ordinary _ _

/-- What stands between rows fails in an ordinary way. -/
theorem afterComma_ordinary (literal cs : List Char) : FailsOrdinarily (afterComma literal cs) := by
  unfold afterComma
  split
  · exact .ok _
  · exact .ok _
  · exact malformed_ordinary _ _

/-- Rows fail in an ordinary way, one after another. -/
theorem readRows_ordinary (literal : List Char) (width? : Option Nat) (cs : List Char) :
    FailsOrdinarily (readRows literal width? cs) := by
  fun_induction readRows literal width? cs with
  | case1 width? cs cause hrow => exact .error (cutRow_ordinary literal cs cause hrow)
  | case2 width? cs row after hrow cause hentries => exact .error (readRow_ordinary literal row cause hentries)
  | case3 => exact malformed_ordinary _ _
  | case4 width? cs row after hrow entries hentries hwidth cause hafter =>
    exact .error (afterComma_ordinary literal after cause hafter)
  | case5 => exact .ok _
  | case6 width? cs row after hrow entries hentries hwidth rest hafter _ cause hrest ih =>
    exact .error (ih cause hrest)
  | case7 => exact .ok _

/-- Arrays fail in an ordinary way. A matrix of one row has a first row. -/
theorem readArray_ordinary (literal : List Char) : FailsOrdinarily (readArray literal) := by
  unfold readArray
  split
  · exact malformed_ordinary _ _
  · split
    · refine .bind (readRows_ordinary literal none _) fun rows _ => ?_
      split
      · rename_i hone
        refine .bind (.orDefect ?_) fun _ _ => .ok _
        cases rows with
        | nil => cases hone
        | cons row rows => rfl
      · exact .ok _
    · exact .bind (readRow_ordinary literal _) fun _ _ => .ok _

/-- A lambda literal cannot be read because its parameter count is too large, or because it is malformed. -/
theorem readLambda_error {literal : List Char} {cause : Cause} (h : readLambda literal = .error cause) :
    cause = .literalTooLarge ∨ ∃ malformation, cause = .malformedLiteral (String.ofList literal) malformation := by
  rcases lambdaForm_or_malformed literal with ⟨count, body, hform⟩ | ⟨malformation, hmalformed⟩
  · rw [readLambda_of_form hform] at h
    split at h
    · cases h
    · cases h
      exact .inl rfl
  · rw [hmalformed] at h
    cases h
    exact .inr ⟨malformation, rfl⟩

/-- Lambdas fail in an ordinary way. -/
theorem readLambda_ordinary (literal : List Char) : FailsOrdinarily (readLambda literal) := by
  intro cause h
  rcases readLambda_error h with rfl | ⟨malformation, rfl⟩ <;> rfl

/-- A body that cannot be cut into words is an ordinary failure. -/
theorem readBody_ordinary (literal body : List Char) : FailsOrdinarily (readBody literal body) := by
  unfold readBody
  split
  · exact .ok _
  · exact malformed_ordinary _ _
  · rename_i hscan
    obtain ⟨_, hcause⟩ := Token.scan_error hscan
    cases hcause

end Literal

end StackLang
