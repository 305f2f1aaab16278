import StackLang.Proofs.Ordinary
import StackLang.Proofs.StackSteps

/-!
# Comparing two runs of an evaluation

The same tokens are evaluated twice, on two stacks that may differ in their capacity and in what lies at the
bottom, and with two limits on nesting. A comparison says which stacks correspond and which failures do, and
a simulation is a comparison that the operations on the stack respect. Then every evaluation respects it: the
second run follows the first one, step by step, through nested evaluations of any depth.

An invariant of a single run is a simulation of the run by itself.
-/

namespace StackLang

/-! ## Classes of values -/

/-- Whether a value is neither an array nor a lambda. -/
def Value.isPlain : Value → Bool
  | vector _ | matrix _ | lambda _ => false
  | _ => true

/-- A class of values that evaluation does not leave. -/
structure ValueClass where
  Holds : Value → Prop
  plain {v : Value} : v.isPlain = true → Holds v
  array {literal : List Char} {v : Value} : Literal.readArray literal = .ok v → Holds v
  binary {op : BinaryOp} {left right v : Value} :
    Holds left → Holds right → op.apply left right = .ok v → Holds v
  transpose {rows : IntMatrix} : Holds (.matrix rows) → Holds (.matrix (IntMatrix.transpose rows))
  /-- A lambda can become a value once it has been invoked. -/
  lambda {literal : String} {parts : Literal.Lambda} {words : List String} :
    literal.toList.head? = some '\x7b' → Literal.readLambda literal.toList = .ok parts →
      Literal.readBody literal.toList parts.body = .ok words → Holds (.lambda literal)

/-- The class of all values. -/
def ValueClass.all : ValueClass where
  Holds _ := True
  plain _ := trivial
  array _ := trivial
  binary _ _ _ := trivial
  transpose _ := trivial
  lambda _ _ _ := trivial

/-- Unary operators give truth values and integers. -/
theorem UnaryOp.isPlain_of_apply {op : UnaryOp} {v result : Value} (h : op.apply v = .ok result) :
    result.isPlain = true := by
  cases op with
  | not =>
    simp only [apply] at h
    cases hv : v.asBoolean with
    | error cause =>
      rw [hv] at h
      cases h
    | ok b =>
      rw [hv] at h
      cases h
      rfl
  | complement =>
    cases v with
    | integer n =>
      cases h
      rfl
    | _ => cases h

/-! ## Comparisons -/

/-- How two runs are compared. -/
structure Comparison where
  /-- The values that the second stack holds underneath those of the first one, top first. -/
  below : List Value
  /-- Whether a number of values on the first stack goes with the capacities of the two stacks. -/
  Fits : (size capacity capacity' : Nat) → Prop
  /-- The values that may be on the first stack. -/
  values : ValueClass
  /-- The failures of the first run after which the second run is free. -/
  Excuses : Cause → Prop
  /-- The failures that correspond, given the stack that the first run leaves. -/
  Matches : Stack → Cause → Cause → Prop

namespace Comparison

/-- The stacks that correspond. -/
structure Stacks (c : Comparison) (s t : Stack) : Prop where
  values : t.values = s.values ++ c.below
  fits : c.Fits s.size s.capacity t.capacity
  holds : ∀ v ∈ s.values, c.values.Holds v

/-- The outcomes that correspond. Results are the same and have the property `Q`. -/
def Outcomes (c : Comparison) {α : Type} (Q : α → Prop) :
    EStateM.Result Cause Stack α → EStateM.Result Cause Stack α → Prop
  | .ok a s, second => Q a ∧ ∃ t, second = .ok a t ∧ c.Stacks s t
  | .error cause s, second =>
    c.Excuses cause ∨ ∃ cause' t, second = .error cause' t ∧ c.Matches s cause cause' ∧ c.Stacks s t

/-- Two steps agree if they have corresponding outcomes on corresponding stacks. -/
def Agree (c : Comparison) {α : Type} (Q : α → Prop) (x y : StackStep α) : Prop :=
  ∀ s t, c.Stacks s t → c.Outcomes Q (x s) (y t)

/-- Two steps without a result agree. -/
abbrev Agrees (c : Comparison) (x y : StackStep Unit) : Prop := c.Agree (fun _ => True) x y

variable {c : Comparison} {α β : Type} {Q : α → Prop} {P : β → Prop}

/-- The second stack has all values of the first one and those below. -/
theorem Stacks.size {s t : Stack} (h : c.Stacks s t) : t.size = s.size + c.below.length := by
  rw [t.size_eq, s.size_eq, h.values, List.length_append]

/-- Results agree. -/
theorem agree_pure {a : α} (h : Q a) : c.Agree Q (pure a) (pure a) := by
  intro s t hst
  exact ⟨h, t, rfl, hst⟩

/-- Of the results that agree less may be said. -/
theorem Agree.mono {x y : StackStep α} {Q' : α → Prop} (hxy : c.Agree Q x y) (hQ : ∀ a, Q a → Q' a) :
    c.Agree Q' x y := by
  intro s t hst
  have hout := hxy s t hst
  cases hx : x s with
  | ok a s' =>
    rw [hx] at hout
    exact ⟨hQ a hout.1, hout.2⟩
  | error cause s' =>
    rw [hx] at hout
    exact hout

/-- Steps that agree can be followed by steps that agree on every result of the first ones. -/
theorem Agree.bind {x y : StackStep α} {f g : α → StackStep β} (hxy : c.Agree Q x y)
    (hfg : ∀ a, Q a → c.Agree P (f a) (g a)) : c.Agree P (x >>= f) (y >>= g) := by
  intro s t hst
  have hout := hxy s t hst
  cases hx : x s with
  | ok a s' =>
    rw [hx] at hout
    obtain ⟨ha, t', hy, hst'⟩ := hout
    rw [bind_of_ok hx, bind_of_ok hy]
    exact hfg a ha s' t' hst'
  | error cause s' =>
    rw [hx] at hout
    rw [bind_of_error hx]
    rcases hout with hexcused | ⟨cause', t', hy, hmatch, hst'⟩
    · exact .inl hexcused
    · rw [bind_of_error hy]
      exact .inr ⟨cause', t', rfl, hmatch, hst'⟩

/-- Steps for the elements of a list agree if those for each element do. -/
theorem agrees_forM {f g : α → StackStep Unit} {as : List α} (h : ∀ a ∈ as, c.Agrees (f a) (g a)) :
    c.Agrees (as.forM f) (as.forM g) := by
  induction as with
  | nil => exact agree_pure trivial
  | cons a as ih =>
    refine (h a List.mem_cons_self).bind fun _ _ => ?_
    exact ih fun a' ha' => h a' (List.mem_cons_of_mem a ha')

end Comparison

/-- A comparison that the operations on the stack respect. -/
structure Simulation extends Comparison where
  fits_of_le {n m k k' : Nat} : n ≤ m → Fits m k k' → Fits n k k'
  /-- Where the first stack has room the second one has room too. -/
  fits_succ {n k k' : Nat} : n < k → Fits n k k' → n + below.length < k' ∧ Fits (n + 1) k k'
  /-- Where the first stack is full the second one is, or the overflow is excused. -/
  full {s t : Stack} : toComparison.Stacks s t → s.capacity ≤ s.size →
    Excuses (.stackOverflow s.capacity) ∨
      t.capacity ≤ t.size ∧ Matches s (.stackOverflow s.capacity) (.stackOverflow t.capacity)
  /-- There is nothing below the first stack, or underflows are excused. -/
  short : (∀ needed found, Excuses (.stackUnderflow needed found)) ∨
    below = [] ∧ ∀ s needed found, Matches s (.stackUnderflow needed found) (.stackUnderflow needed found)
  ordinary {cause : Cause} (s : Stack) : cause.isOrdinary = true → Matches s cause cause

namespace Simulation

open Comparison
open Stack (push pop popN popPair peek rotateUp rotateDown)

variable {σ : Simulation} {α : Type} {Q : α → Prop} {s t : Stack}

/-! ## Stacks -/

/-- Corresponding stacks still correspond without their top values. -/
theorem stacks_dropTop {n : Nat} (h : σ.Stacks s t) (hn : n ≤ s.size) :
    σ.Stacks (s.dropTop n) (t.dropTop n) where
  values := by
    change t.values.drop n = s.values.drop n ++ σ.below
    rw [h.values, List.drop_append_of_le_length (by rw [← s.size_eq]; exact hn)]
  fits := σ.fits_of_le (Nat.sub_le _ _) h.fits
  holds v hv := h.holds v (List.mem_of_mem_drop hv)

/-- Corresponding stacks still correspond when their top values are rearranged alike. -/
theorem stacks_rearrangeTop {n : Nat} {f : List Value → List Value}
    (hlength : ∀ front, (f front).length = front.length) (hmem : ∀ front, ∀ v ∈ f front, v ∈ front)
    (h : σ.Stacks s t) (hn : n ≤ s.size) :
    σ.Stacks (s.rearrangeTop n f hlength) (t.rearrangeTop n f hlength) where
  values := by
    have hle : n ≤ s.values.length := by rw [← s.size_eq]; exact hn
    change f (t.values.take n) ++ t.values.drop n = f (s.values.take n) ++ s.values.drop n ++ σ.below
    rw [h.values, List.take_append_of_le_length hle, List.drop_append_of_le_length hle, List.append_assoc]
  fits := h.fits
  holds v hv := by
    rcases List.mem_append.mp hv with hfront | hrest
    · exact h.holds v (List.mem_of_mem_take (hmem _ v hfront))
    · exact h.holds v (List.mem_of_mem_drop hrest)

/-- A step that fails with an underflow agrees with one that would fail so on a stack without more values. -/
theorem outcomes_underflow {needed found : Nat} {second : EStateM.Result Cause Stack α} (h : σ.Stacks s t)
    (hsecond : t.values = s.values → second = .error (.stackUnderflow needed found) t) :
    σ.Outcomes Q (.error (.stackUnderflow needed found) s) second := by
  rcases σ.short with hexcused | ⟨hbelow, hmatch⟩
  · exact .inl (hexcused needed found)
  · have hvalues : t.values = s.values := by rw [h.values, hbelow, List.append_nil]
    exact .inr ⟨_, t, hsecond hvalues, hmatch s needed found, h⟩

/-- A step on the top `n` values that fails on fewer agrees with itself, if what it does to the stack does. -/
theorem agree_of_top {n : Nat} {x : StackStep α} (result : List Value → α) (change : Stack → Stack)
    (hx : ∀ s, x s =
      if s.size < n then .error (.stackUnderflow n s.size) s else .ok (result (s.values.take n)) (change s))
    (hQ : ∀ front, (∀ v ∈ front, σ.values.Holds v) → Q (result front))
    (hchange : ∀ {s t}, σ.Stacks s t → n ≤ s.size → σ.Stacks (change s) (change t)) : σ.Agree Q x x := by
  intro s t hst
  rw [hx s, hx t]
  by_cases hn : s.size < n
  · rw [if_pos hn]
    refine outcomes_underflow hst fun hvalues => ?_
    have hsize : t.size = s.size := by rw [t.size_eq, s.size_eq, hvalues]
    rw [hsize, if_pos hn]
  · have hle : n ≤ s.size := Nat.le_of_not_lt hn
    have hnot : ¬ t.size < n := by
      rw [hst.size]
      omega
    have htake : t.values.take n = s.values.take n := by
      rw [hst.values, List.take_append_of_le_length (by rw [← s.size_eq]; exact hle)]
    rw [if_neg hn, if_neg hnot, htake]
    exact ⟨hQ _ fun v hv => hst.holds v (List.mem_of_mem_take hv), _, rfl, hchange hst hle⟩

/-- Removing values agrees. -/
theorem agree_popN (n : Nat) : σ.Agree (fun popped => ∀ v ∈ popped, σ.values.Holds v) (popN n) (popN n) :=
  agree_of_top id (Stack.dropTop n) (Stack.popN_apply n) (fun _ h => h) stacks_dropTop

/-- Moving a value up agrees. -/
theorem agrees_rotateUp (n : Nat) : σ.Agrees (rotateUp n) (rotateUp n) := by
  refine agree_of_top (fun _ => ()) _ (Stack.rotateUp_apply n) (fun _ _ => trivial) ?_
  exact stacks_rearrangeTop Stack.length_lastToFront fun front _ hv => (Stack.lastToFront_perm front).subset hv

/-- Moving a value down agrees. -/
theorem agrees_rotateDown (n : Nat) : σ.Agrees (rotateDown n) (rotateDown n) := by
  refine agree_of_top (fun _ => ()) _ (Stack.rotateDown_apply n) (fun _ _ => trivial) ?_
  exact stacks_rearrangeTop Stack.length_firstToEnd fun front _ hv => (Stack.firstToEnd_perm front).subset hv

/-- A push of an admitted value agrees. -/
theorem agrees_push {v : Value} (hv : σ.values.Holds v) : σ.Agrees (push v) (push v) := by
  intro s t hst
  rw [Stack.push_apply, Stack.push_apply]
  by_cases hfull : s.capacity ≤ s.size
  · rw [if_pos hfull]
    rcases σ.full hst hfull with hexcused | ⟨hfull', hmatch⟩
    · exact .inl hexcused
    · rw [if_pos hfull']
      exact .inr ⟨_, t, rfl, hmatch, hst⟩
  · obtain ⟨hroom, hfits⟩ := σ.fits_succ (Nat.lt_of_not_le hfull) hst.fits
    rw [if_neg hfull, if_neg (by rw [hst.size]; omega)]
    refine ⟨trivial, _, rfl, ?_, hfits, ?_⟩
    · change v :: t.values = v :: s.values ++ σ.below
      rw [hst.values, List.cons_append]
    · intro w hw
      rcases List.mem_cons.mp hw with rfl | hrest
      · exact hv
      · exact hst.holds w hrest

/-- Removing the top value agrees. -/
theorem agree_pop : σ.Agree σ.values.Holds pop pop := by
  intro s t hst
  rw [Stack.pop_apply, Stack.pop_apply]
  cases hvalues : s.values with
  | nil => exact outcomes_underflow hst fun hsame => by rw [hsame, hvalues]
  | cons v rest =>
    rw [hst.values, hvalues]
    have hsize : 1 ≤ s.size := by simp [s.size_eq, hvalues]
    exact ⟨hst.holds v (by simp [hvalues]), _, rfl, stacks_dropTop hst hsize⟩

/-- Reading the top value agrees. -/
theorem agree_peek : σ.Agree σ.values.Holds peek peek := by
  intro s t hst
  rw [Stack.peek_apply, Stack.peek_apply]
  cases hvalues : s.values with
  | nil => exact outcomes_underflow hst fun hsame => by rw [hsame, hvalues]
  | cons v rest =>
    rw [hst.values, hvalues]
    exact ⟨hst.holds v (by simp [hvalues]), t, rfl, hst⟩

/-- Removing a pair agrees. -/
theorem agree_popPair :
    σ.Agree (fun pair => σ.values.Holds pair.1 ∧ σ.values.Holds pair.2) popPair popPair := by
  intro s t hst
  rw [Stack.popPair_apply, Stack.popPair_apply]
  match hvalues : s.values with
  | [] | [_] =>
    refine outcomes_underflow hst fun hsame => ?_
    rw [t.size_eq, s.size_eq, hsame, hvalues]
  | right :: left :: rest =>
    rw [hst.values, hvalues]
    have hsize : 2 ≤ s.size := by simp [s.size_eq, hvalues]
    have hleft : σ.values.Holds left := hst.holds left (by simp [hvalues])
    have hright : σ.values.Holds right := hst.holds right (by simp [hvalues])
    exact ⟨⟨hleft, hright⟩, _, rfl, stacks_dropTop hst hsize⟩

/-- An ordinary failure agrees with itself. -/
theorem agree_throw {cause : Cause} (h : cause.isOrdinary = true) :
    σ.Agree Q (throw cause) (throw cause) := by
  intro s t hst
  exact .inr ⟨cause, t, rfl, σ.ordinary s h, hst⟩

/-- A computation apart from the stack agrees with itself if it fails in an ordinary way. -/
theorem agree_lift {x : Except Cause α} (hx : FailsOrdinarily x) :
    σ.Agree (fun a => x = .ok a) (StackStep.lift x) (StackStep.lift x) := by
  cases x with
  | ok a => exact agree_pure rfl
  | error cause => exact agree_throw (hx cause rfl)

/-! ## Words -/

/-- Binary operators agree. -/
theorem agrees_binary (op : BinaryOp) : σ.Agrees op.run op.run := by
  refine agree_popPair.bind fun pair hpair => ?_
  refine (agree_lift (op.apply_ordinary pair.1 pair.2)).bind fun v hv => ?_
  exact agrees_push (σ.values.binary hpair.1 hpair.2 hv)

/-- Unary operators agree. -/
theorem agrees_unary (op : UnaryOp) : σ.Agrees op.run op.run := by
  refine agree_pop.bind fun v _ => ?_
  refine (agree_lift (op.apply_ordinary v)).bind fun result hresult => ?_
  exact agrees_push (σ.values.plain (UnaryOp.isPlain_of_apply hresult))

/-- Counts are taken off the stacks alike. -/
theorem agree_popCount : σ.Agree (fun _ => True) popCount popCount := by
  refine agree_pop.bind fun v _ => ?_
  refine (agree_lift v.asInteger_ordinary).bind fun n _ => ?_
  exact (agree_lift n.toCount_ordinary).mono fun _ _ => trivial

/-- Stack words agree. -/
theorem agrees_stackWord (word : StackWord) : σ.Agrees word.run word.run := by
  cases word with
  | swap => exact agrees_rotateUp 2
  | drop => exact agree_pop.bind (P := fun _ => True) fun v _ => agree_pure (a := ()) trivial
  | dup => exact agree_peek.bind fun v hv => agrees_push hv
  | rot => exact agrees_rotateUp 3
  | roll => exact agree_popCount.bind fun n _ => agrees_rotateUp n
  | rollDown => exact agree_popCount.bind fun n _ => agrees_rotateDown n

/-- Choices agree. -/
theorem agrees_choose : σ.Agrees choose choose := by
  intro s t hst
  rw [choose_apply, choose_apply]
  match hvalues : s.values with
  | [] | [_] | [_, _] =>
    refine outcomes_underflow hst fun hsame => ?_
    rw [t.size_eq, s.size_eq, hsame, hvalues]
  | whenFalse :: whenTrue :: condition :: rest =>
    rw [hst.values, hvalues]
    have hsize : 3 ≤ s.size := by simp [s.size_eq, hvalues]
    cases condition with
    | boolean b =>
      have hchosen : σ.values.Holds (if b then whenTrue else whenFalse) := by
        split
        · exact hst.holds whenTrue (by simp [hvalues])
        · exact hst.holds whenFalse (by simp [hvalues])
      exact agrees_push hchosen _ _ (stacks_dropTop hst hsize)
    | _ => exact .inr ⟨_, t, rfl, σ.ordinary s rfl, hst⟩

/-- Transpositions agree. -/
theorem agrees_transposeTop : σ.Agrees transposeTop transposeTop := by
  refine agree_pop.bind fun v hv => ?_
  cases v with
  | matrix rows => exact agrees_push (σ.values.transpose hv)
  | _ => exact agree_throw rfl

/-! ## Nesting -/

/-- Two levels agree if they evaluate every token alike, and force every text alike. -/
structure LevelsAgree (σ : Simulation) (level level' : Level) : Prop where
  token : ∀ text, σ.Agrees (level.token text) (level'.token text)
  force : ∀ text, σ.Agrees (level.force text) (level'.force text)

/-- Where the levels end, the second run has reached its end too, or the end of the first one is excused. -/
def BelowAgrees (σ : Simulation) (limit limit' : Nat) : Option Level → Option Level → Prop
  | none, below?' =>
    σ.Excuses (.recursionLimit limit) ∨
      below?' = none ∧ ∀ s, σ.Matches s (.recursionLimit limit) (.recursionLimit limit')
  | some _, none => False
  | some level, some level' => σ.LevelsAgree level level'

variable {limit limit' : Nat} {below? below?' : Option Level}

/-- What is done one level deeper agrees if it does so on levels that agree. -/
theorem agrees_nested {body body' : Level → StackStep Unit} (hbelow : σ.BelowAgrees limit limit' below? below?')
    (hbody : ∀ level level', σ.LevelsAgree level level' → σ.Agrees (body level) (body' level')) :
    σ.Agrees (nested limit below? body) (nested limit' below?' body') := by
  cases below? with
  | none =>
    intro s t hst
    rcases hbelow with hexcused | ⟨rfl, hmatch⟩
    · exact .inl hexcused
    · exact .inr ⟨_, t, rfl, hmatch s, hst⟩
  | some level =>
    cases below?' with
    | none => exact hbelow.elim
    | some level' => exact hbody level level' hbelow

/-- The words of a lambda's body agree. The arguments are values that were on the first stack. -/
theorem agrees_lambdaWord {level level' : Level} (hlevels : σ.LevelsAgree level level') {literal : String}
    (hliteral : σ.values.Holds (.lambda literal)) {arguments : List Value}
    (harguments : ∀ v ∈ arguments, σ.values.Holds v) (word : String) :
    σ.Agrees (lambdaWord level literal arguments word) (lambdaWord level' literal arguments word) := by
  unfold lambdaWord
  split
  · exact agrees_push hliteral
  · split
    · exact hlevels.token word
    · split
      · exact agree_throw rfl
      · exact hlevels.force _
      · exact hlevels.force _
      · rename_i v _ _ hargument
        exact agrees_push (harguments v (List.mem_of_getElem? hargument))

/-- Invocations agree, if the literal may be a value once it has been read. -/
theorem agrees_invoke (hbelow : σ.BelowAgrees limit limit' below? below?') {literal : String}
    (hliteral : ∀ {parts words}, Literal.readLambda literal.toList = .ok parts →
      Literal.readBody literal.toList parts.body = .ok words → σ.values.Holds (.lambda literal)) :
    σ.Agrees (invoke limit below? literal) (invoke limit' below?' literal) := by
  refine (agree_lift (Literal.readLambda_ordinary _)).bind fun parts hparts => ?_
  refine (agree_lift (Literal.readBody_ordinary _ _)).bind fun words hwords => ?_
  refine agrees_nested hbelow fun level level' hlevels => ?_
  refine (agree_popN parts.arity).bind fun arguments harguments => ?_
  exact agrees_forM fun word _ => agrees_lambdaWord hlevels (hliteral hparts hwords) harguments word

/-- Forcing the top value agrees. -/
theorem agrees_evalTop (hbelow : σ.BelowAgrees limit limit' below? below?') :
    σ.Agrees (evalTop limit below?) (evalTop limit' below?') := by
  refine agree_pop.bind fun v hv => ?_
  cases v with
  | lambda literal => exact agrees_invoke hbelow fun _ _ => hv
  | symbol text | string text => exact agrees_nested hbelow fun _ _ hlevels => hlevels.token text
  | _ => exact agrees_push hv

/-- Words agree. -/
theorem agrees_word (hbelow : σ.BelowAgrees limit limit' below? below?') (cs : List Char) (word : Word) :
    σ.Agrees (word.run limit below? cs) (word.run limit' below?' cs) := by
  cases word with
  | integer =>
    refine (agree_lift (Literal.readInteger_ordinary cs)).bind fun n _ => ?_
    exact agrees_push (σ.values.plain rfl)
  | float => exact agrees_push (σ.values.plain rfl)
  | boolean b => exact agrees_push (σ.values.plain rfl)
  | binary op => exact agrees_binary op
  | unary op => exact agrees_unary op
  | stack word => exact agrees_stackWord word
  | control word =>
    cases word with
    | ifElse => exact agrees_choose
    | transpose => exact agrees_transposeTop
    | eval => exact agrees_evalTop hbelow

/-- Tokens agree above levels that agree. -/
theorem agrees_evalToken (hbelow : σ.BelowAgrees limit limit' below? below?') (text : String) :
    σ.Agrees (evalToken limit below? text) (evalToken limit' below?' text) := by
  unfold evalToken
  split
  · refine (agree_lift (Literal.readArray_ordinary _)).bind fun v hv => ?_
    exact agrees_push (σ.values.array hv)
  · rename_i rest htext
    exact agrees_invoke hbelow fun hparts hwords => σ.values.lambda (by rw [htext]; rfl) hparts hwords
  · split
    · refine (agree_lift (Literal.readInteger_ordinary _)).bind fun n _ => ?_
      exact agrees_push (σ.values.plain rfl)
    · exact agrees_push (σ.values.plain rfl)
  · split
    · exact agrees_word hbelow _ _
    · exact agrees_push (σ.values.plain rfl)

/-- The second run has as many levels as the first one, or more if the end of the first one's is excused. -/
def DepthsAgree (σ : Simulation) (limit levels limit' levels' : Nat) : Prop :=
  levels ≤ levels' ∧ σ.Excuses (.recursionLimit limit) ∨
    levels = levels' ∧ ∀ s, σ.Matches s (.recursionLimit limit) (.recursionLimit limit')

/-- The levels below agree, by induction on their number. -/
theorem belowAgrees_levelBelow? {levels levels' : Nat} (h : σ.DepthsAgree limit levels limit' levels') :
    σ.BelowAgrees limit limit' (levelBelow? limit levels) (levelBelow? limit' levels') := by
  induction levels generalizing levels' with
  | zero =>
    rcases h with ⟨_, hexcused⟩ | ⟨rfl, hmatch⟩
    · exact .inl hexcused
    · exact .inr ⟨rfl, hmatch⟩
  | succ levels ih =>
    cases levels' with
    | zero => exact absurd h (by simp [DepthsAgree])
    | succ levels' =>
      have hbelow : σ.BelowAgrees limit limit' (levelBelow? limit levels) (levelBelow? limit' levels') := by
        apply ih
        simpa [DepthsAgree] using h
      exact {
        token := agrees_evalToken hbelow
        force := fun text => agrees_nested hbelow fun _ _ hlevels => hlevels.token text }

/-- Tokens agree on every depth. -/
theorem agrees_evalToken_levelBelow? {levels levels' : Nat} (h : σ.DepthsAgree limit levels limit' levels')
    (text : String) :
    σ.Agrees (evalToken limit (levelBelow? limit levels) text)
      (evalToken limit' (levelBelow? limit' levels') text) :=
  agrees_evalToken (belowAgrees_levelBelow? h) text

/-! ## Programs -/

/-- Programs agree, token by token. A failure of either run is on the same line. -/
theorem evalTokens_outcomes {levels levels' : Nat} (h : σ.DepthsAgree limit levels limit' levels')
    (tokens : List Token) (hst : σ.Stacks s t) :
    match evalTokens limit levels tokens s with
    | .ok _ s' => ∃ t', evalTokens limit' levels' tokens t = .ok () t' ∧ σ.Stacks s' t'
    | .error e s' =>
      σ.Excuses e.cause ∨
        ∃ cause t', evalTokens limit' levels' tokens t = .error { e with cause } t' ∧
          σ.Matches s' e.cause cause ∧ σ.Stacks s' t' := by
  induction tokens generalizing s t with
  | nil => exact ⟨t, rfl, hst⟩
  | cons token tokens ih =>
    have hout := agrees_evalToken_levelBelow? h token.text s t hst
    cases hs : evalToken limit (levelBelow? limit levels) token.text s with
    | ok _ s' =>
      rw [hs] at hout
      obtain ⟨_, t', ht, hst'⟩ := hout
      rw [evalTokens_cons_of_ok hs, evalTokens_cons_of_ok ht]
      exact ih hst'
    | error cause s' =>
      rw [hs] at hout
      rw [evalTokens_cons_of_error hs]
      rcases hout with hexcused | ⟨cause', t', ht, hmatch, hst'⟩
      · exact .inl hexcused
      · exact .inr ⟨cause', t', evalTokens_cons_of_error ht tokens, hmatch, hst'⟩

end Simulation

end StackLang
