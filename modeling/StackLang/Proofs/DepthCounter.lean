import StackLang.Proofs.StackSteps

/-!
# Counting the depth

A second evaluator, which hands no levels down. How deep it is stands beside the stack as a number that goes
up before a nested evaluation and down again after it, whether that one has failed or not, and every failure
takes its line where it arises. The number does not bound the recursion by itself, so a token that is
evaluated inside another one costs a unit of fuel.

The two evaluators agree at every depth, because the number always comes back to where it was. Fuel for one
token more than there are levels left is enough, whatever the tokens do.
-/

namespace StackLang

/-- A stack, and how many nested evaluations are in progress. -/
structure CountedStack where
  stack : Stack
  depth : Nat

/-- Why a counted evaluation ends early. -/
inductive Halt where
  | failed (error : Located Cause)
  | outOfFuel

/-- A step that works on a stack and on the depth. Both keep what a failing step did to them. -/
abbrev CountedStep (α : Type) := EStateM Halt CountedStack α

namespace Counted

open LocatedStep (lift)
open Stack (pushAt popAt popNAt)

/-- An outcome on a stack as an outcome at a depth. -/
def atDepth {α : Type} (depth : Nat) :
    EStateM.Result (Located Cause) Stack α → EStateM.Result Halt CountedStack α
  | .ok a stack => .ok a { stack, depth }
  | .error e stack => .error (.failed e) { stack, depth }

/-- A step on the stack, which leaves the depth alone. -/
def step {α : Type} (x : LocatedStep α) : CountedStep α := fun c => atDepth c.depth (x c.stack)

/-- Lowers the depth after an outcome of either kind. -/
def lower (line : Nat) : EStateM.Result Halt CountedStack Unit → EStateM.Result Halt CountedStack Unit
  | .ok a ⟨stack, depth + 1⟩ => .ok a ⟨stack, depth⟩
  | .error halt ⟨stack, depth + 1⟩ => .error halt ⟨stack, depth⟩
  | .ok _ ⟨stack, 0⟩ | .error _ ⟨stack, 0⟩ =>
    .error (.failed { line, cause := .defect .negativeCount }) ⟨stack, 0⟩

/-- Raises the depth for as long as a step takes, unless the limit is reached. -/
def nested (limit line : Nat) (body : CountedStep Unit) : CountedStep Unit := fun c =>
  if limit ≤ c.depth then .error (.failed { line, cause := .recursionLimit limit }) c
  else lower line (body { c with depth := c.depth + 1 })

section

variable (limit : Nat) (token : (line : Nat) → String → CountedStep Unit) (line : Nat)

/-- Evaluates a word of a lambda's body. -/
def lambdaWord (literal : String) (arguments : List Value) (word : String) : CountedStep Unit :=
  if word = selfWord then step (pushAt line (.lambda literal))
  else
    match Literal.parameterIndex? word.toList with
    | none => token line word
    | some index =>
      match arguments[index]? with
      | none => step (throw { line, cause := .unboundParameter index arguments.length })
      | some (.symbol text) | some (.lambda text) => nested limit line (token line text)
      | some v => step (pushAt line v)

/-- Invokes a lambda literal. -/
def invoke (literal : String) : CountedStep Unit := do
  let lambda ← step (lift (Literal.readLambdaAt line literal.toList))
  let words ← step (lift (Literal.readBodyAt line literal.toList lambda.body))
  nested limit line do
    let arguments ← step (popNAt line lambda.arity)
    words.forM fun word => lambdaWord limit token line literal arguments word.text

/-- Takes a value off the stack and evaluates it. -/
def evalTop : CountedStep Unit := do
  match ← step (popAt line) with
  | .lambda literal => invoke limit token line literal
  | .symbol text | .string text => nested limit line (token line text)
  | v => step (pushAt line v)

/-- Chooses, transposes or forces. -/
def controlWord : ControlWord → CountedStep Unit
  | .ifElse => step (chooseAt line)
  | .transpose => step (transposeTopAt line)
  | .eval => evalTop limit token line

/-- Evaluates a word that has the given text. Only control words nest. -/
def word (cs : List Char) : Word → CountedStep Unit
  | .control word => controlWord limit token line word
  | word => step (word.runAt limit none line cs)

/-- Evaluates a token, and the tokens inside it by the given evaluation. -/
def evalToken (text : String) : CountedStep Unit :=
  match text.toList with
  | '[' :: rest => step do pushAt line (← lift (Literal.readArrayAt line ('[' :: rest)))
  | '\x7b' :: _ => invoke limit token line text
  | '\'' :: quoted =>
    step <|
      if Word.isInteger quoted then do pushAt line (.integer (← lift (Literal.readIntegerAt line quoted)))
      else pushAt line (.symbol (String.ofList quoted))
  | cs =>
    match Word.ofChars? cs with
    | some w => word limit token line cs w
    | none => step (pushAt line (.string (String.ofList (stringContents cs))))

end

/-- Evaluates a token on a line if there is fuel for it. The tokens inside it have one unit less. -/
def withFuel (limit : Nat) : (line fuel : Nat) → String → CountedStep Unit
  | _, 0, _ => throw .outOfFuel
  | line, fuel + 1, text => evalToken limit (fun line => withFuel limit line fuel) line text

/-! ## Agreement of single steps -/

/-- A counted step does at a depth what a step on the stack does, and comes back to this depth. -/
def Follows {α : Type} (depth : Nat) (x : LocatedStep α) (y : CountedStep α) : Prop :=
  ∀ s, y ⟨s, depth⟩ = atDepth depth (x s)

section

variable {α β : Type} {depth limit line : Nat}

/-- A step on the stack is followed at every depth. -/
theorem follows_step (x : LocatedStep α) : Follows depth x (step x) := fun _ => rfl

/-- Steps that are followed can be followed by steps that are. -/
theorem Follows.bind {x : LocatedStep α} {y : CountedStep α} {f : α → LocatedStep β}
    {g : α → CountedStep β} (hxy : Follows depth x y) (hfg : ∀ a, Follows depth (f a) (g a)) :
    Follows depth (x >>= f) (y >>= g) := by
  intro s
  have hy := hxy s
  change EStateM.bind y g _ = atDepth depth (EStateM.bind x f s)
  cases hx : x s with
  | ok a s' =>
    rw [hx] at hy
    simp only [EStateM.bind, hx, hy, atDepth]
    exact hfg a s'
  | error e s' =>
    rw [hx] at hy
    simp only [EStateM.bind, hx, hy, atDepth]

/-- Steps for the elements of a list are followed if the step for each element is. -/
theorem follows_forM {f : α → LocatedStep Unit} {g : α → CountedStep Unit}
    (hfg : ∀ a, Follows depth (f a) (g a)) (as : List α) : Follows depth (as.forM f) (as.forM g) := by
  induction as with
  | nil => exact fun _ => rfl
  | cons a as ih => exact (hfg a).bind fun _ => ih

/-- Where the limit is reached nothing is nested. -/
theorem follows_nested_of_le (h : limit ≤ depth) (y : CountedStep Unit) :
    Follows depth (throw { line, cause := .recursionLimit limit }) (nested limit line y) := by
  intro s
  rw [nested, if_pos h]
  rfl

/-- Below the limit, what is followed one level deeper is followed when it is nested: the depth that was
raised before is lowered after success and after failure. -/
theorem Follows.nested_of_lt {x : LocatedStep Unit} {y : CountedStep Unit} (h : depth < limit)
    (hxy : Follows (depth + 1) x y) : Follows depth x (nested limit line y) := by
  intro s
  rw [nested, if_neg (Nat.not_le_of_lt h), hxy s]
  cases x s <;> rfl

/-! ## Agreement of the evaluators -/

/-- The level below a depth is followed by an evaluation of tokens, and there is one below the limit only. -/
def BelowFollows (limit depth : Nat) (below? : Option LocatedLevel)
    (token : (line : Nat) → String → CountedStep Unit) : Prop :=
  match below? with
  | none => limit ≤ depth
  | some level =>
    depth < limit ∧ (∀ line text, Follows (depth + 1) (level.token line text) (token line text)) ∧
      ∀ line text, Follows (depth + 1) (level.force line text) (nested limit line (token line text))

variable {below? : Option LocatedLevel} {token : (line : Nat) → String → CountedStep Unit}

/-- What is done one level deeper is followed if it is on the level below. -/
theorem BelowFollows.nested {body : LocatedLevel → LocatedStep Unit} {y : CountedStep Unit}
    (hbelow : BelowFollows limit depth below? token)
    (hbody : ∀ level, BelowFollows limit depth (some level) token → Follows (depth + 1) (body level) y) :
    Follows depth (nestedAt limit line below? body) (nested limit line y) := by
  cases below? with
  | none => exact follows_nested_of_le hbelow y
  | some level => exact (hbody level hbelow).nested_of_lt hbelow.1

/-- The words of a lambda's body are followed. -/
theorem follows_lambdaWord {level : LocatedLevel} (hlevel : BelowFollows limit depth (some level) token)
    (literal : String) (arguments : List Value) (text : String) :
    Follows (depth + 1) (lambdaWordAt level line literal arguments text)
      (lambdaWord limit token line literal arguments text) := by
  unfold lambdaWord lambdaWordAt
  split
  · exact follows_step _
  · cases Literal.parameterIndex? text.toList with
    | none => exact hlevel.2.1 line text
    | some index =>
      cases harguments : arguments[index]? with
      | none => simp only [harguments]; exact follows_step _
      | some v =>
        simp only [harguments]
        cases v with
        | symbol text | lambda text => exact hlevel.2.2 line text
        | _ => exact follows_step _

/-- Invocations are followed. -/
theorem follows_invoke (hbelow : BelowFollows limit depth below? token) (literal : String) :
    Follows depth (invokeAt limit below? line literal) (invoke limit token line literal) := by
  refine (follows_step _).bind fun parts => ?_
  refine (follows_step _).bind fun words => ?_
  refine hbelow.nested fun level hlevel => ?_
  refine (follows_step _).bind fun arguments => ?_
  exact follows_forM (fun word => follows_lambdaWord hlevel literal arguments word.text) words

/-- Forcing the top value is followed. -/
theorem follows_evalTop (hbelow : BelowFollows limit depth below? token) :
    Follows depth (evalTopAt limit below? line) (evalTop limit token line) := by
  refine (follows_step _).bind fun v => ?_
  cases v with
  | lambda literal => exact follows_invoke hbelow literal
  | symbol text | string text => exact hbelow.nested fun level hlevel => hlevel.2.1 line text
  | _ => exact follows_step _

/-- Control words are followed. -/
theorem follows_controlWord (hbelow : BelowFollows limit depth below? token) (w : ControlWord) :
    Follows depth (w.runAt limit below? line) (controlWord limit token line w) := by
  cases w with
  | eval => exact follows_evalTop hbelow
  | _ => exact follows_step _

/-- Words are followed. -/
theorem follows_word (hbelow : BelowFollows limit depth below? token) (cs : List Char) (w : Word) :
    Follows depth (w.runAt limit below? line cs) (word limit token line cs w) := by
  cases w with
  | control w => exact follows_controlWord hbelow w
  | _ => exact follows_step _

/-- Tokens are followed above a level that is. -/
theorem follows_evalToken (hbelow : BelowFollows limit depth below? token) (text : String) :
    Follows depth (evalTokenAt limit below? line text) (evalToken limit token line text) := by
  unfold evalToken evalTokenAt
  generalize text.toList = cs
  split
  · exact follows_step _
  · exact follows_invoke hbelow text
  · exact follows_step _
  · obtain hword | ⟨w, hword⟩ := Option.eq_none_or_eq_some (Word.ofChars? cs)
    · simp only [hword]
      exact follows_step _
    · simp only [hword]
      exact follows_word hbelow cs w

/-- With fuel for all levels, the levels below a depth are followed if every token is that has a level less
than there is fuel. -/
theorem belowFollows_levelBelow? {fuel levels : Nat}
    (htoken : ∀ {depth levels}, depth + levels = limit → levels < fuel → ∀ line text,
      Follows depth (evalTokenAt limit (locatedLevelBelow? limit levels) line text) (withFuel limit line fuel text))
    (hdepth : depth + levels = limit) (hfuel : levels ≤ fuel) :
    BelowFollows limit depth (locatedLevelBelow? limit levels) fun line => withFuel limit line fuel := by
  induction levels generalizing depth with
  | zero => exact Nat.le_of_eq hdepth.symm
  | succ levels ih =>
    have hdeeper : depth + 1 + levels = limit := by omega
    have hbelow := ih hdeeper (by omega)
    refine ⟨by omega, fun line text => htoken hdeeper hfuel line text, fun line text => ?_⟩
    exact hbelow.nested fun level hlevel => hlevel.2.1 line text

/-- A token is followed at every depth if there is more fuel than there are levels left. -/
theorem follows_withFuel {fuel levels : Nat} (hdepth : depth + levels = limit) (hfuel : levels < fuel)
    (line : Nat) (text : String) :
    Follows depth (evalTokenAt limit (locatedLevelBelow? limit levels) line text) (withFuel limit line fuel text) := by
  -- A token inside this one costs a unit of fuel and a level, so there stays more fuel than levels.
  induction fuel generalizing depth levels line text with
  | zero => omega
  | succ fuel ih =>
    have hbelow := belowFollows_levelBelow? ih hdepth (by omega)
    exact follows_evalToken hbelow text

end

/-- At any depth within the limit, fuel for one token more than there are levels left never runs out: the
outcome is that of the evaluation by levels, and the depth is again what it was. -/
theorem withFuel_eq_atDepth {limit depth fuel : Nat} (hdepth : depth ≤ limit) (hfuel : limit - depth + 1 ≤ fuel)
    (line : Nat) (text : String) (s : Stack) :
    withFuel limit line fuel text ⟨s, depth⟩ =
        atDepth depth (evalTokenAt limit (locatedLevelBelow? limit (limit - depth)) line text s) ∧
      ∀ c, withFuel limit line fuel text ⟨s, depth⟩ ≠ .error .outOfFuel c := by
  have houtcome : withFuel limit line fuel text ⟨s, depth⟩ =
      atDepth depth (evalTokenAt limit (locatedLevelBelow? limit (limit - depth)) line text s) :=
    follows_withFuel (Nat.add_sub_of_le hdepth) hfuel line text s
  refine ⟨houtcome, fun c => ?_⟩
  rw [houtcome]
  cases evalTokenAt limit (locatedLevelBelow? limit (limit - depth)) line text s <;> simp [atDepth]

/-- Forcing runs into the limit on the second token inside another. For these two tokens one unit of fuel is too
little and two are enough. -/
theorem withFuel_eq_atDepth_forced :
    let force := Value.symbol "EVAL"
    withFuel 1 5 1 "EVAL" ⟨.ofList 4 [force, force, force], 0⟩ = .error .outOfFuel ⟨.ofList 4 [force, force], 0⟩ ∧
      withFuel 1 5 2 "EVAL" ⟨.ofList 4 [force, force, force], 0⟩ =
        .error (.failed ⟨5, .recursionLimit 1⟩) ⟨.ofList 4 [force], 0⟩ :=
  ⟨rfl, (withFuel_eq_atDepth (by decide) (by decide) 5 "EVAL" _).1.trans rfl⟩

end Counted

end StackLang
