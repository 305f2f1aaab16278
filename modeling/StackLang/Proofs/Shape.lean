import StackLang.Proofs.Reachable

/-!
# The shape of arrays

Every vector on the stack has at least two entries, and every matrix at least two rows and two columns, with
rows of one length. Array literals are read only if they have this shape, and every operator that makes an
array keeps it: the operators check the sizes of their operands against each other, and the functions below
them give results of the expected size where these agree.
-/

namespace StackLang

/-! ## Results of computations -/

/-- Whether every result of a computation has a property. -/
def Yields {α : Type} (P : α → Prop) (x : Except Cause α) : Prop := ∀ a, x = .ok a → P a

namespace Yields

variable {α β : Type} {P : α → Prop} {Q : β → Prop}

/-- A result with the property. -/
theorem ok {a : α} (h : P a) : Yields P (.ok a) := by
  intro b hb
  cases hb
  exact h

/-- A failure has no result. -/
theorem error (cause : Cause) : Yields P (.error cause) := by
  intro b hb
  cases hb

/-- Of the results of a computation less may be said. -/
theorem mono {x : Except Cause α} {P' : α → Prop} (hx : Yields P x) (h : ∀ a, P a → P' a) : Yields P' x :=
  fun a ha => h a (hx a ha)

/-- A computation may use what is known about the result of the one before. -/
theorem bind {x : Except Cause α} {f : α → Except Cause β} (hx : Yields P x)
    (hf : ∀ a, P a → Yields Q (f a)) : Yields Q (x >>= f) := by
  cases x with
  | ok a => exact hf a (hx a rfl)
  | error cause => exact error cause

/-- Nothing has to be known about the result of the computation before. -/
theorem bind_any {x : Except Cause α} {f : α → Except Cause β} (hf : ∀ a, Yields Q (f a)) :
    Yields Q (x >>= f) :=
  bind (P := fun _ => True) (fun _ _ => trivial) fun a _ => hf a

/-- Computations on the elements of a list give a list of the same length. -/
theorem mapM {f : α → Except Cause β} {as : List α} (hf : ∀ a ∈ as, Yields Q (f a)) :
    Yields (fun bs => bs.length = as.length ∧ ∀ b ∈ bs, Q b) (as.mapM f) := by
  induction as with
  | nil => exact ok (by simp)
  | cons a as ih =>
    rw [List.mapM_cons]
    refine bind (hf a List.mem_cons_self) fun b hb => ?_
    refine bind (ih fun a' ha' => hf a' (List.mem_cons_of_mem a ha')) fun bs hbs => ?_
    refine ok ⟨by rw [List.length_cons, hbs.1, List.length_cons], ?_⟩
    intro b' hb'
    rcases List.mem_cons.mp hb' with rfl | hrest
    · exact hb
    · exact hbs.2 b' hrest

/-- A computation on each element gives as many results. -/
theorem length_mapM (f : α → Except Cause β) (as : List α) :
    Yields (fun bs => bs.length = as.length) (as.mapM f) :=
  (mapM (Q := fun _ => True) fun _ _ _ _ => trivial).mono fun _ h => h.1

end Yields

/-! ## Sizes -/

namespace IntMatrix

/-- Whether a matrix has a number of rows, all of a given length. -/
def HasSize (rows : IntMatrix) (height width : Nat) : Prop :=
  rows.length = height ∧ ∀ row ∈ rows, row.length = width

variable {rows : IntMatrix} {height width : Nat}

/-- The width of a matrix is read off its first row, so a matrix with rows has the shape that its size says. -/
theorem HasSize.shape (h : rows.HasSize height width) (hheight : 0 < height) :
    IntMatrix.shape rows = (height, width) := by
  cases rows with
  | nil =>
    have : 0 = height := h.1
    omega
  | cons row rows =>
    have hrow : row.length = width := h.2 row List.mem_cons_self
    have hrows : (row :: rows).length = height := h.1
    simp only [IntMatrix.shape, List.head?_cons, Option.map_some, Option.getD_some, hrow, hrows]

/-- A column has one entry for each row. -/
theorem HasSize.length_column (h : rows.HasSize height width) {j : Nat} (hj : j < width) :
    (rows.filterMap fun row => row[j]?).length = height := by
  obtain ⟨hlength, hwidth⟩ := h
  induction rows generalizing height with
  | nil => exact hlength
  | cons row rows ih =>
    have hrow : j < row.length := by
      rw [hwidth row List.mem_cons_self]
      exact hj
    have hrest := ih rfl fun row' hrow' => hwidth row' (List.mem_cons_of_mem row hrow')
    simp only [List.filterMap_cons, List.getElem?_eq_getElem hrow, List.length_cons, hrest]
    exact hlength

/-- A transpose has as many rows as the matrix has columns, and as many columns as it has rows. -/
theorem HasSize.transpose (h : rows.HasSize height width) (hheight : 0 < height) :
    (IntMatrix.transpose rows).HasSize width height := by
  rw [IntMatrix.transpose_eq]
  rw [h.shape hheight]
  constructor
  · rw [List.length_map, List.length_range]
  · intro column hcolumn
    obtain ⟨j, hj, rfl⟩ := List.mem_map.mp hcolumn
    exact h.length_column (List.mem_range.mp hj)

/-- A matrix made row by row, from rows of one length. -/
theorem hasSize_mapM {α : Type} {f : α → Except Cause IntVector} {as : List α}
    (hf : ∀ a ∈ as, Yields (fun row => row.length = width) (f a)) :
    Yields (fun rows => IntMatrix.HasSize rows as.length width) (as.mapM f) :=
  Yields.mapM hf

/-- A product has the rows of one matrix and the columns of the other. -/
theorem HasSize.product {a b : IntMatrix} {inner : Nat} (ha : a.HasSize height inner)
    (hb : b.HasSize inner width) (hinner : 0 < inner) :
    Yields (fun c => IntMatrix.HasSize c height width) (IntMatrix.product a b) := by
  obtain ⟨rfl, _⟩ := ha
  have hcolumns : (IntMatrix.transpose b).length = width := (hb.transpose hinner).1
  refine hasSize_mapM fun row _ => ?_
  rw [← hcolumns]
  exact Yields.length_mapM _ _

/-- The identity is square. -/
theorem hasSize_identity (size : Nat) : (IntMatrix.identity size).HasSize size size := by
  constructor
  · simp [IntMatrix.identity]
  · intro row hrow
    obtain ⟨i, _, rfl⟩ := List.mem_map.mp hrow
    simp

end IntMatrix

/-! ## Values -/

namespace Value

/-- Whether a value that is an array has at least two entries, or at least two rows and two columns. -/
def Shaped : Value → Prop
  | vector entries => 2 ≤ entries.length
  | matrix rows => ∃ height width, 2 ≤ height ∧ 2 ≤ width ∧ rows.HasSize height width
  | _ => True

/-- A value that is no array has no shape to keep. -/
theorem shaped_of_isPlain {v : Value} (h : v.isPlain = true) : v.Shaped := by
  cases v with
  | vector entries => cases h
  | matrix rows => cases h
  | _ => trivial

/-- Whether a value is a truth value or an integer. -/
def isDiscrete : Value → Bool
  | boolean _ | integer _ => true
  | _ => false

/-- Truth values and integers have no shape to keep. -/
theorem shaped_of_isDiscrete {v : Value} (h : v.isDiscrete = true) : v.Shaped := by
  cases v with
  | boolean b => trivial
  | integer n => trivial
  | _ => cases h

/-- A computation of at least two entries gives a shaped vector. -/
theorem vector_yields {x : Except Cause IntVector} {length : Nat} (hlength : 2 ≤ length)
    (hx : Yields (fun entries => entries.length = length) x) : Yields Shaped (do return vector (← x)) := by
  refine hx.bind fun entries hentries => .ok ?_
  change 2 ≤ entries.length
  rw [hentries]
  exact hlength

/-- A computation of at least two rows and columns gives a shaped matrix. -/
theorem matrix_yields {x : Except Cause IntMatrix} {height width : Nat} (hheight : 2 ≤ height)
    (hwidth : 2 ≤ width) (hx : Yields (fun rows => IntMatrix.HasSize rows height width) x) :
    Yields Shaped (do return matrix (← x)) :=
  hx.bind fun _ hsize => .ok ⟨height, width, hheight, hwidth, hsize⟩

end Value

namespace Operation

/-- Sums and differences of vectors of one length have that length. -/
theorem entrywise_yields (op : BinaryOp) {a b : IntVector} (h : a.length = b.length) :
    Yields (fun entries => entries.length = a.length) (entrywise op a b) := by
  refine (Yields.length_mapM _ _).mono fun entries hentries => ?_
  rw [hentries, List.length_zip, h, Nat.min_self]

/-- Sums and differences of matrices of one size have that size. -/
theorem rowwise_yields (op : BinaryOp) {a b : IntMatrix} {height width : Nat} (ha : a.HasSize height width)
    (hb : b.HasSize height width) :
    Yields (fun rows => IntMatrix.HasSize rows height width) (rowwise op a b) := by
  have hlength : (a.zip b).length = height := by rw [List.length_zip, ha.1, hb.1, Nat.min_self]
  rw [← hlength]
  refine IntMatrix.hasSize_mapM fun pair hpair => ?_
  obtain ⟨hleft, hright⟩ := List.of_mem_zip (a := pair.1) (b := pair.2) hpair
  refine (entrywise_yields op ?_).mono fun entries hentries => ?_
  · rw [ha.2 _ hleft, hb.2 _ hright]
  · rw [hentries, ha.2 _ hleft]

/-- Sums and differences of shaped matrices are shaped, where the shapes agree. -/
theorem rowwise_shaped (op : BinaryOp) {a b : IntMatrix} (ha : (Value.matrix a).Shaped)
    (hb : (Value.matrix b).Shaped) (hshape : IntMatrix.shape a = IntMatrix.shape b) :
    Yields Value.Shaped (do return .matrix (← rowwise op a b)) := by
  obtain ⟨height, width, hheight, hwidth, hsize⟩ := ha
  obtain ⟨height', width', hheight', _, hsize'⟩ := hb
  rw [hsize.shape (by omega), hsize'.shape (by omega)] at hshape
  cases hshape
  exact Value.matrix_yields hheight hwidth (rowwise_yields op hsize hsize')

/-- Products of shaped matrices are shaped, where the inner sizes agree. -/
theorem product_shaped {a b : IntMatrix} (ha : (Value.matrix a).Shaped) (hb : (Value.matrix b).Shaped)
    (hinner : (IntMatrix.shape a).2 = (IntMatrix.shape b).1) :
    Yields Value.Shaped (do return .matrix (← IntMatrix.product a b)) := by
  obtain ⟨height, inner, hheight, _, hsize⟩ := ha
  obtain ⟨inner', width, hinner', hwidth, hsize'⟩ := hb
  rw [hsize.shape (by omega), hsize'.shape (by omega)] at hinner
  cases hinner
  exact Value.matrix_yields hheight hwidth (hsize.product hsize' (by omega))

/-- A function on rows that keeps their lengths keeps the shape of a matrix. -/
theorem mapM_rows_shaped {a : IntMatrix} (ha : (Value.matrix a).Shaped) {f : IntVector → Except Cause IntVector}
    (hf : ∀ row, Yields (fun entries => entries.length = row.length) (f row)) :
    Yields Value.Shaped (do return .matrix (← a.mapM f)) := by
  obtain ⟨height, width, hheight, hwidth, hlength, hrows⟩ := ha
  rw [← hlength] at hheight
  refine Value.matrix_yields hheight hwidth (IntMatrix.hasSize_mapM fun row hrow => ?_)
  rw [← hrows row hrow]
  exact hf row

/-- Linear algebra on shaped values gives shaped values. -/
theorem linear_shaped (op : BinaryOp) {left right : Value} (hleft : left.Shaped) (hright : right.Shaped) :
    Yields Value.Shaped (linear op left right) := by
  have hcase := linear_cases op left right
  generalize linear op left right = outcome at hcase
  cases hcase with
  | vectors _ h => exact Value.vector_yields hleft (entrywise_yields op h)
  | dot => exact .bind_any fun n => .ok trivial
  | scale | divide => exact Value.vector_yields hleft (Yields.length_mapM _ _)
  | scaleFrom => exact Value.vector_yields hright (Yields.length_mapM _ _)
  | matrices _ h => exact rowwise_shaped op hleft hright h
  | product h => exact product_shaped hleft hright h
  | productVector =>
    obtain ⟨height, width, hheight, _, hlength, _⟩ := hleft
    rw [← hlength] at hheight
    exact Value.vector_yields hheight (Yields.length_mapM _ _)
  | scaleRows | divideRows => exact mapM_rows_shaped hleft fun row => Yields.length_mapM _ _
  | scaleRowsFrom => exact mapM_rows_shaped hright fun row => Yields.length_mapM _ _
  | mismatch => exact .error _

/-- The repeated products of a square matrix stay square. -/
theorem powerFrom_hasSize {size : Nat} (hsize : 0 < size) {result square : IntMatrix}
    (hresult : result.HasSize size size) (hsquare : square.HasSize size size) (n : Nat) :
    Yields (fun rows => IntMatrix.HasSize rows size size) (powerFrom IntMatrix.product result square n) := by
  induction n using Nat.strongRecOn generalizing result square with
  | ind n ih =>
    by_cases hn : n = 0
    · rw [powerFrom, dif_pos hn]
      exact .ok hresult
    · rw [powerFrom_step _ result square hn]
      refine Yields.bind (P := fun rows => IntMatrix.HasSize rows size size) ?_ fun result' hresult' => ?_
      · split
        · exact hresult.product hsquare hsize
        · exact .ok hresult
      · split
        · exact .ok hresult'
        · exact (hsquare.product hsquare hsize).bind fun square' hsquare' =>
            ih (n / 2) (by omega) hresult' hsquare'

/-- Powers of shaped values are shaped. -/
theorem power_shaped {base : Value} (hbase : base.Shaped) (exponent : Value) :
    Yields Value.Shaped (power base exponent) := by
  unfold power
  split
  · dsimp only
    split
    · rename_i rows e h
      refine .bind_any fun e => ?_
      obtain ⟨height, width, hheight, hwidth, hsize⟩ := hbase
      rw [hsize.shape (by omega)] at h
      obtain rfl : height = width := h
      have hidentity := IntMatrix.hasSize_identity rows.length
      rw [hsize.1] at hidentity
      rw [hsize.1]
      exact Value.matrix_yields hheight hwidth (powerFrom_hasSize (by omega) hidentity hsize e)
    · exact .error _
  · split
    · split
      · exact .bind_any fun e => .bind_any fun n => .ok trivial
      · exact .ok trivial
    · split
      · exact .bind_any fun x => .bind_any fun y => .ok trivial
      · exact .error _

/-- A cross product has three entries. -/
theorem cross_shaped (left right : Value) : Yields Value.Shaped (cross left right) := by
  unfold cross
  split
  · split
    · refine .bind_any fun x => .bind_any fun y => .bind_any fun z => .ok ?_
      change 2 ≤ 3
      decide
    · exact .error _
  · exact .error _

/-- Arithmetic on numbers and texts gives numbers and texts. -/
theorem scalar_plain (op : BinaryOp) (left right : Value) :
    Yields (fun v => v.isPlain = true) (scalar op left right) := by
  unfold scalar
  split
  · exact .bind_any fun n => .ok rfl
  · split
    · exact .ok rfl
    · exact .error _
  · split
    · exact .bind_any fun x => .bind_any fun y => .bind_any fun z => .ok rfl
    · exact .error _

/-- Comparison gives truth values and integers. -/
theorem comparison_isDiscrete (op : BinaryOp) (left right : Value) :
    Yields (fun v => v.isDiscrete = true) (comparison op left right) := by
  unfold comparison
  split
  · exact .ok rfl
  · exact .ok rfl
  · split
    · exact .error _
    · split <;> first | exact .ok rfl | exact .error _

/-- The bitwise operators give truth values and integers. -/
theorem bitwise_isDiscrete (op : BinaryOp) (left right : Value) :
    Yields (fun v => v.isDiscrete = true) (bitwise op left right) := by
  unfold bitwise
  split
  · exact .bind_any fun n => .ok rfl
  · split <;> first | exact .ok rfl | exact .error _
  · exact .error _

end Operation

/-- Binary operators keep the shape of arrays. -/
theorem BinaryOp.apply_shaped (op : BinaryOp) {left right : Value} (hleft : left.Shaped)
    (hright : right.Shaped) : Yields Value.Shaped (op.apply left right) := by
  have hdiscrete {x : Except Cause Value} (hx : Yields (fun v => v.isDiscrete = true) x) :
      Yields Value.Shaped x := hx.mono fun _ => Value.shaped_of_isDiscrete
  have harithmetic :
      Yields Value.Shaped (if left.isArray || right.isArray then Operation.linear op left right
        else Operation.scalar op left right) := by
    split
    · exact Operation.linear_shaped op hleft hright
    · exact (Operation.scalar_plain op left right).mono fun _ => Value.shaped_of_isPlain
  have hcomparison := hdiscrete (Operation.comparison_isDiscrete op left right)
  have hbitwise := hdiscrete (Operation.bitwise_isDiscrete op left right)
  cases op with
  | add | sub | mul | div | mod => exact harithmetic
  | pow => exact Operation.power_shaped hleft right
  | cross => exact Operation.cross_shaped left right
  | equal | notEqual | greater | less | greaterEqual | lessEqual | compare => exact hcomparison
  | bitAnd | bitOr | bitXor | shiftLeft | shiftRight => exact hbitwise

/-! ## Literals -/

namespace Literal

/-- A row has at least two entries. -/
theorem readRow_yields (literal row : List Char) :
    Yields (fun entries => 2 ≤ entries.length) (readRow literal row) := by
  refine .bind_any fun entries => ?_
  split
  · exact .error _
  · rename_i h
    exact .ok (Nat.le_of_not_lt h)

/-- The rows of a matrix are at least one, have at least two entries each, and are of one length. -/
theorem readRows_yields (literal : List Char) (width? : Option Nat) (cs : List Char) :
    Yields (fun rows => 0 < rows.length ∧
      ∃ width, 2 ≤ width ∧ IntMatrix.HasSize rows rows.length width ∧ ∀ w ∈ width?, w = width)
      (readRows literal width? cs) := by
  fun_induction readRows literal width? cs with
  | case1 | case2 | case3 | case4 | case6 => exact .error _
  | case5 width? cs row after hrow entries hentries hwidth hafter =>
    refine .ok ⟨Nat.zero_lt_one, entries.length, readRow_yields literal row entries hentries, ?_, ?_⟩
    · simp [IntMatrix.HasSize]
    · intro w hw
      simpa [Option.mem_def.mp hw] using hwidth
  | case7 width? cs row after hrow entries hentries hwidth rest hafter _ rows hrest ih =>
    obtain ⟨_, width, hle, hsize, heq⟩ := ih rows hrest
    obtain rfl : entries.length = width := heq entries.length rfl
    refine .ok ⟨Nat.zero_lt_succ _, entries.length, hle, ⟨rfl, ?_⟩, ?_⟩
    · intro row' hrow'
      rcases List.mem_cons.mp hrow' with rfl | hrest'
      · rfl
      · exact hsize.2 row' hrest'
    · intro w hw
      simpa [Option.mem_def.mp hw] using hwidth

/-- Array literals are shaped. A matrix of one row counts as a vector. -/
theorem readArray_shaped (literal : List Char) : Yields Value.Shaped (readArray literal) := by
  unfold readArray
  split
  · exact .error _
  · split
    · refine (readRows_yields literal none _).bind fun rows hrows => ?_
      obtain ⟨hpositive, width, hwidth, hsize, _⟩ := hrows
      split
      · cases rows with
        | nil => cases hpositive
        | cons row rows =>
          refine .ok ?_
          change 2 ≤ row.length
          rw [hsize.2 row List.mem_cons_self]
          exact hwidth
      · exact .ok ⟨rows.length, width, by omega, hwidth, hsize⟩
    · exact (readRow_yields literal _).bind fun entries hentries => .ok hentries

end Literal

/-! ## Machines -/

/-- The class of shaped values. -/
def ValueClass.shaped : ValueClass where
  Holds := Value.Shaped
  plain := Value.shaped_of_isPlain
  array {literal v} h := Literal.readArray_shaped literal v h
  binary {op _ _ v} hleft hright h := op.apply_shaped hleft hright v h
  transpose := by
    rintro rows ⟨height, width, hheight, hwidth, hsize⟩
    exact ⟨width, height, hwidth, hheight, hsize.transpose (by omega)⟩
  lambda _ _ _ := trivial

/-- Whatever tokens a machine is fed with, and whichever of them fail, the arrays on its stack are shaped. -/
theorem Machine.shaped_afterTokens (limits : Limits) (tokens : List Token) :
    ∀ v ∈ ((Machine.new limits).afterTokens tokens).stack.values, v.Shaped := by
  have hempty : (Machine.new limits).stack.Within .shaped := by
    intro v hv
    cases hv
  exact Machine.within_afterTokens hempty tokens

/-- A vector is left over when an operator has failed on it, and its multiple is a vector again. -/
theorem Machine.shaped_afterTokens_scaled :
    let m := (Machine.new {}).afterTokens [⟨"[1, 2]", 1⟩, ⟨"+", 1⟩, ⟨"3", 2⟩, ⟨"*", 2⟩]
    .vector [3, 6] ∈ m.stack.values ∧ (Value.vector [3, 6]).Shaped := by
  intro m
  have hmem : .vector [3, 6] ∈ m.stack.values := by
    have hvalues : m.stack.values = [.vector [3, 6]] := rfl
    rw [hvalues]
    exact List.mem_singleton_self _
  exact ⟨hmem, Machine.shaped_afterTokens {} _ _ hmem⟩

end StackLang
