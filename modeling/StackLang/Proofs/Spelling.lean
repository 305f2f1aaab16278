import StackLang.Proofs.LambdaGrammar
import StackLang.Proofs.ResultKinds
import StackLang.Proofs.Texts

/-!
# The characters of texts

Strings, symbols and lambdas carry texts, and evaluation makes up no character of them. Every character of a text on
the stack comes from a token that has been evaluated or from a text that was on the stack before: texts are joined,
words are cut out of the bodies of lambdas, and quotes are taken off, but nothing is written into a text.

This holds for any set of characters at once. What is known about the characters of all tokens of a program is therefore
known about the texts of its result.
-/

namespace StackLang

/-! ## Parts of texts -/

namespace Text

/-- What remains of a text without the blanks around it is part of it. -/
theorem trim_subset (cs : List Char) : trim cs ⊆ cs := by
  intro c hc
  have hstart : c ∈ trimStart cs :=
    List.mem_reverse.mp ((List.dropWhile_sublist isBlank).subset (List.mem_reverse.mp hc))
  exact (List.dropWhile_sublist isBlank).subset hstart

/-- What is between an opening and a closing character is part of the text. -/
theorem subset_of_between? {opening closing : Char} {cs inner : List Char}
    (h : between? opening closing cs = some inner) : inner ⊆ cs := by
  intro c hc
  rw [eq_of_between? h]
  simp [hc]

end Text

/-- The tokens that a line is cut into are parts of it. -/
theorem Token.subset_of_scan {cs : List Char} {texts : List String} (h : scan cs = .ok texts) :
    ∀ text ∈ texts, text.toList ⊆ cs := by
  fun_induction scan cs generalizing texts with
  | case1 cs htrim =>
    cases h
    intro text htext
    cases htext
  | case5 cs first rest htrim length hlength token tail hcut htail texts htexts ih =>
    cases h
    have htrimmed : first :: rest ⊆ cs := by
      rw [← htrim]
      exact (List.dropWhile_sublist Text.isBlank).subset
    rw [(Text.of_cutAt hcut).1] at htrimmed
    intro text htext c hc
    rcases List.mem_cons.mp htext with rfl | hlater
    · rw [String.toList_ofList] at hc
      exact htrimmed (List.mem_append_left tail hc)
    · exact htrimmed (List.mem_append_right token (ih htexts text hlater hc))
  | _ => cases h

namespace Literal

/-- The body of a lambda is part of its literal. -/
theorem subset_of_readLambda {literal : List Char} {lambda : Lambda} (h : readLambda literal = .ok lambda) :
    lambda.body ⊆ literal := by
  obtain ⟨count, body, @⟨front, -, -, -, before, after, -, -, rfl⟩, -, rfl⟩ := readLambda_eq_ok_iff.mp h
  intro c hc
  have hbody : c ∈ body := Text.trim_subset body hc
  simp [hbody]

/-- The words of a lambda's body are parts of it. -/
theorem subset_of_readBody {literal body : List Char} {words : List String} (h : readBody literal body = .ok words) :
    ∀ word ∈ words, word.toList ⊆ body := by
  unfold readBody at h
  cases hscan : Token.scan body with
  | ok words' =>
    rw [hscan] at h
    cases h
    exact Token.subset_of_scan hscan
  | error cause =>
    rw [hscan] at h
    cases cause <;> cases h

end Literal

/-- The contents of a string literal are part of it. -/
theorem stringContents_subset (cs : List Char) : stringContents cs ⊆ cs := by
  unfold stringContents
  cases h : Text.between? '"' '"' cs with
  | none => exact List.Subset.refl cs
  | some inner => exact Text.subset_of_between? h

/-! ## Steps that keep a property of values -/

/-- Whether a step, where it succeeds, has a result with one property and leaves a stack of values with another. -/
def StackStep.Keeps (P : Value → Prop) {α : Type} (Q : α → Prop) (x : StackStep α) : Prop :=
  ∀ s a s', (∀ v ∈ s.values, P v) → x s = .ok a s' → Q a ∧ ∀ v ∈ s'.values, P v

namespace StackStep.Keeps

open Stack (push pop popN popPair peek rotateUp rotateDown)

variable {P : Value → Prop} {α β : Type} {Q : α → Prop} {R : β → Prop}

/-- A result leaves the stack as it is. -/
theorem pure {a : α} (h : Q a) : Keeps P Q (Pure.pure a) := by
  intro s b s' hs hrun
  cases hrun
  exact ⟨h, hs⟩

/-- A failure leaves nothing to show. -/
theorem throw (cause : Cause) : Keeps P Q (MonadExcept.throw cause : StackStep α) := by
  intro s a s' _ hrun
  cases hrun

/-- Of the result of a step less may be said. -/
theorem mono {x : StackStep α} {Q' : α → Prop} (hx : Keeps P Q x) (h : ∀ a, Q a → Q' a) : Keeps P Q' x :=
  fun s a s' hs hrun => (hx s a s' hs hrun).imp_left (h a)

/-- A step may use what is known about the result of the one before. -/
theorem bind {x : StackStep α} {f : α → StackStep β} (hx : Keeps P Q x) (hf : ∀ a, Q a → Keeps P R (f a)) :
    Keeps P R (x >>= f) := by
  intro s b s' hs hrun
  cases hresult : x s with
  | error cause s₁ =>
    rw [bind_of_error hresult] at hrun
    cases hrun
  | ok a s₁ =>
    rw [bind_of_ok hresult] at hrun
    obtain ⟨ha, hs₁⟩ := hx s a s₁ hs hresult
    exact hf a ha s₁ b s' hs₁ hrun

/-- Steps that are taken one after another keep what each of them keeps. -/
theorem forM {f : α → StackStep Unit} {as : List α} (h : ∀ a ∈ as, Keeps P (fun _ => True) (f a)) :
    Keeps P (fun _ => True) (as.forM f) := by
  induction as with
  | nil => exact pure trivial
  | cons a as ih =>
    exact bind (h a List.mem_cons_self) fun _ _ => ih fun a' ha' => h a' (List.mem_cons_of_mem a ha')

/-- A computation apart from the stack leaves it as it is. -/
theorem lift {x : Except Cause α} : Keeps P (fun a => x = .ok a) (StackStep.lift x) := by
  cases x with
  | ok a => exact pure rfl
  | error cause => exact throw cause

/-- A step that takes all its values from the stack keeps every property of values. -/
theorem of_subset {x : StackStep α}
    (h : ∀ s a s', x s = .ok a s' → s'.values ⊆ s.values ∧ ((∀ v ∈ s.values, P v) → Q a)) : Keeps P Q x := by
  intro s a s' hs hrun
  obtain ⟨hsubset, hresult⟩ := h s a s' hrun
  exact ⟨hresult hs, fun v hv => hs v (hsubset hv)⟩

/-- A value with the property may be pushed. -/
theorem push {v : Value} (hv : P v) : Keeps P (fun _ => True) (push v) := by
  intro s a s' hs hrun
  rw [Stack.push_apply] at hrun
  split at hrun
  · cases hrun
  · cases hrun
    exact ⟨trivial, List.forall_mem_cons.mpr ⟨hv, hs⟩⟩

/-- The top value has the property. -/
theorem pop : Keeps P P pop := by
  refine of_subset fun s v s' hrun => ?_
  rw [Stack.pop_apply] at hrun
  cases hvalues : s.values with
  | nil =>
    simp only [hvalues] at hrun
    cases hrun
  | cons w rest =>
    simp only [hvalues] at hrun
    cases hrun
    refine ⟨?_, fun h => h v List.mem_cons_self⟩
    rw [← hvalues]
    exact List.drop_subset 1 s.values

/-- The top value has the property, also if it stays. -/
theorem peek : Keeps P P peek := by
  refine of_subset fun s v s' hrun => ?_
  rw [Stack.peek_apply] at hrun
  cases hvalues : s.values with
  | nil =>
    simp only [hvalues] at hrun
    cases hrun
  | cons w rest =>
    simp only [hvalues] at hrun
    cases hrun
    exact ⟨by rw [hvalues]; exact List.Subset.refl _, fun h => h v List.mem_cons_self⟩

/-- The top values have the property. -/
theorem popN (n : Nat) : Keeps P (fun popped => ∀ v ∈ popped, P v) (popN n) := by
  refine of_subset fun s popped s' hrun => ?_
  rw [Stack.popN_apply] at hrun
  split at hrun
  · cases hrun
  · cases hrun
    exact ⟨List.drop_subset n s.values, fun h v hv => h v (List.mem_of_mem_take hv)⟩

/-- The top two values have the property. -/
theorem popPair : Keeps P (fun pair => P pair.1 ∧ P pair.2) popPair := by
  refine bind (popN 2) fun popped hpopped => ?_
  split
  · exact pure ⟨hpopped _ (by simp), hpopped _ (by simp)⟩
  · exact throw _

/-- Rearranging the top values brings in no other ones. -/
theorem of_rearrangeTop {n : Nat} {x : StackStep Unit} {f : List Value → List Value}
    {hlength : ∀ front, (f front).length = front.length}
    (hx : ∀ s, x s =
      if s.size < n then .error (.stackUnderflow n s.size) s else .ok () (s.rearrangeTop n f hlength))
    (hmem : ∀ front, f front ⊆ front) : Keeps P (fun _ => True) x := by
  refine of_subset fun s _ s' hrun => ⟨?_, fun _ => trivial⟩
  rw [hx] at hrun
  split at hrun
  · cases hrun
  · cases hrun
    intro v hv
    rcases List.mem_append.mp hv with hfront | hrest
    · exact List.mem_of_mem_take (hmem _ hfront)
    · exact List.mem_of_mem_drop hrest

/-- Moving a value up keeps the property. -/
theorem rotateUp (n : Nat) : Keeps P (fun _ => True) (rotateUp n) :=
  of_rearrangeTop (Stack.rotateUp_apply n) fun front => (Stack.lastToFront_perm front).subset

/-- Moving a value down keeps the property. -/
theorem rotateDown (n : Nat) : Keeps P (fun _ => True) (rotateDown n) :=
  of_rearrangeTop (Stack.rotateDown_apply n) fun front => (Stack.firstToEnd_perm front).subset

/-- A choice pushes one of the values that it removes. -/
theorem choose : Keeps P (fun _ => True) choose := by
  intro s a s' hs hrun
  rw [choose_apply] at hrun
  split at hrun
  · rename_i whenFalse whenTrue b rest hvalues
    have hchosen : P (if b then whenTrue else whenFalse) := by
      split
      · exact hs whenTrue (by simp [hvalues])
      · exact hs whenFalse (by simp [hvalues])
    exact push hchosen _ a s' (fun v hv => hs v (List.mem_of_mem_drop hv)) hrun
  · cases hrun
  · cases hrun

/-- Counts are taken off the stack. -/
theorem popCount : Keeps P (fun _ => True) popCount :=
  bind pop fun _ _ => bind lift fun _ _ => lift.mono fun _ _ => trivial

/-- Stack words keep every property of values. -/
theorem stackWord (word : StackWord) : Keeps P (fun _ => True) word.run := by
  cases word with
  | swap => exact rotateUp 2
  | drop => exact bind pop fun _ _ => pure trivial
  | dup => exact bind peek fun _ hv => push hv
  | rot => exact rotateUp 3
  | roll => exact bind popCount fun n _ => rotateUp n
  | rollDown => exact bind popCount fun n _ => rotateDown n

end StackStep.Keeps

/-! ## Evaluation -/

/-- Whether a text consists of characters with a property. -/
def Text.Spelled (p : Char → Prop) (text : String) : Prop := ∀ c ∈ text.toList, p c

/-- Whether the text that a value carries, if it does, consists of characters with a property. -/
def Value.Spelled (p : Char → Prop) : Value → Prop
  | string s => Text.Spelled p s
  | symbol token => Text.Spelled p token
  | lambda literal => Text.Spelled p literal
  | _ => True

/-- A value that carries no text has no characters. -/
theorem Value.spelled_of_isText {p : Char → Prop} {v : Value} (h : v.isText = false) : v.Spelled p := by
  cases v with
  | string s => cases h
  | symbol token => cases h
  | lambda literal => cases h
  | _ => trivial

section Spelled

open Stack (push)
open StackStep (Keeps)

variable {p : Char → Prop} {limit : Nat} {below? : Option Level}

/-- Part of a text consists of its characters. -/
theorem Text.Spelled.of_subset {text : String} {cs : List Char} (h : Spelled p text) (hcs : cs ⊆ text.toList) :
    Spelled p (String.ofList cs) := by
  intro c hc
  rw [String.toList_ofList] at hc
  exact h c (hcs hc)

/-- Binary operators make texts only by joining. -/
theorem BinaryOp.keeps_spelled (op : BinaryOp) : Keeps (Value.Spelled p) (fun _ => True) op.run := by
  refine Keeps.popPair.bind fun ⟨left, right⟩ ⟨hleft, hright⟩ => ?_
  refine Keeps.lift.bind fun v hv => .push ?_
  rcases op.apply_joins left right v hv with htext | ⟨a, b, rfl, rfl, rfl⟩
  · exact Value.spelled_of_isText htext
  · intro c hc
    rw [String.toList_append] at hc
    exact (List.mem_append.mp hc).elim (hleft c) (hright c)

/-- Unary operators make no texts. -/
theorem UnaryOp.keeps_spelled (op : UnaryOp) : Keeps (Value.Spelled p) (fun _ => True) op.run :=
  Keeps.pop.bind fun v _ => Keeps.lift.bind fun result hresult =>
    .push (Value.spelled_of_isText (op.apply_isText v result hresult))

/-- Transposition makes no texts. -/
theorem keeps_transposeTop : Keeps (Value.Spelled p) (fun _ => True) transposeTop := by
  refine Keeps.pop.bind fun v _ => ?_
  cases v with
  | matrix rows => exact .push trivial
  | _ => exact .throw _

/-- Whether a level makes up no characters when it evaluates or forces a text. -/
structure Level.Spells (p : Char → Prop) (level : Level) : Prop where
  token : ∀ text, Text.Spelled p text → Keeps (Value.Spelled p) (fun _ => True) (level.token text)
  force : ∀ text, Text.Spelled p text → Keeps (Value.Spelled p) (fun _ => True) (level.force text)

/-- What is done one level deeper makes up no characters if the level below makes up none. -/
theorem keeps_nested {body : Level → StackStep Unit} (hbelow : ∀ level ∈ below?, level.Spells p)
    (hbody : ∀ level, level.Spells p → Keeps (Value.Spelled p) (fun _ => True) (body level)) :
    Keeps (Value.Spelled p) (fun _ => True) (nested limit below? body) := by
  cases below? with
  | none => exact .throw _
  | some level => exact hbody level (hbelow level rfl)

/-- A word of a body pushes the lambda or an argument, or is evaluated. -/
theorem keeps_lambdaWord {level : Level} (hlevel : level.Spells p) {literal word : String}
    (hliteral : Text.Spelled p literal) {arguments : List Value} (harguments : ∀ v ∈ arguments, v.Spelled p)
    (hword : Text.Spelled p word) :
    Keeps (Value.Spelled p) (fun _ => True) (lambdaWord level literal arguments word) := by
  unfold lambdaWord
  split
  · exact .push hliteral
  · split
    · exact hlevel.token word hword
    · split
      · exact .throw _
      · rename_i text hargument
        exact hlevel.force text (harguments (.symbol text) (List.mem_of_getElem? hargument))
      · rename_i text hargument
        exact hlevel.force text (harguments (.lambda text) (List.mem_of_getElem? hargument))
      · rename_i v _ _ hargument
        exact .push (harguments v (List.mem_of_getElem? hargument))

/-- An invocation evaluates words that are parts of the literal. -/
theorem keeps_invoke (hbelow : ∀ level ∈ below?, level.Spells p) {literal : String} (h : Text.Spelled p literal) :
    Keeps (Value.Spelled p) (fun _ => True) (invoke limit below? literal) := by
  refine Keeps.lift.bind fun lambda hlambda => Keeps.lift.bind fun words hwords => ?_
  refine keeps_nested hbelow fun level hlevel => ?_
  refine (Keeps.popN lambda.arity).bind fun arguments harguments => .forM fun word hword => ?_
  have hspelled : Text.Spelled p word := fun c hc =>
    h c (Literal.subset_of_readLambda hlambda (Literal.subset_of_readBody hwords word hword hc))
  exact keeps_lambdaWord hlevel h harguments hspelled

/-- Forcing the top value evaluates its text. -/
theorem keeps_evalTop (hbelow : ∀ level ∈ below?, level.Spells p) :
    Keeps (Value.Spelled p) (fun _ => True) (evalTop limit below?) := by
  refine Keeps.pop.bind fun v hv => ?_
  cases v with
  | lambda literal => exact keeps_invoke hbelow hv
  | symbol text | string text => exact keeps_nested hbelow fun level hlevel => hlevel.token text hv
  | _ => exact .push hv

/-- Words make up no characters. -/
theorem keeps_word (hbelow : ∀ level ∈ below?, level.Spells p) (cs : List Char) (word : Word) :
    Keeps (Value.Spelled p) (fun _ => True) (word.run limit below? cs) := by
  cases word with
  | integer => exact Keeps.lift.bind fun _ _ => .push trivial
  | float => exact .push trivial
  | boolean b => exact .push trivial
  | binary op => exact op.keeps_spelled
  | unary op => exact op.keeps_spelled
  | stack word => exact .stackWord word
  | control word =>
    cases word with
    | ifElse => exact .choose
    | transpose => exact keeps_transposeTop
    | eval => exact keeps_evalTop hbelow

/-- A token makes up no characters above a level that makes up none. -/
theorem keeps_evalToken (hbelow : ∀ level ∈ below?, level.Spells p) {text : String} (h : Text.Spelled p text) :
    Keeps (Value.Spelled p) (fun _ => True) (evalToken limit below? text) := by
  unfold evalToken
  split
  · exact Keeps.lift.bind fun v hv => .push (Value.spelled_of_isText (Literal.readArray_isText _ v hv))
  · exact keeps_invoke hbelow h
  · rename_i quoted htext
    have hquoted : quoted ⊆ text.toList := by
      rw [htext]
      exact List.subset_cons_self _ quoted
    split
    · exact Keeps.lift.bind fun _ _ => .push trivial
    · exact .push (h.of_subset hquoted)
  · split
    · exact keeps_word hbelow _ _
    · exact .push (h.of_subset (stringContents_subset _))

/-- No level makes up characters, by induction on the number of levels below. -/
theorem spells_levelBelow? (limit levels : Nat) : ∀ level ∈ levelBelow? limit levels, level.Spells p := by
  induction levels with
  | zero => exact nofun
  | succ levels ih =>
    rintro level ⟨⟩
    exact {
      token := fun text htext => keeps_evalToken ih htext
      force := fun text htext => keeps_nested ih fun level hlevel => hlevel.token text htext }

/-- Every character of a text on the stack that tokens leave is one of theirs, or was in a text on the stack before. -/
theorem spelled_of_evalTokens {levels : Nat} {tokens : List Token} {s s' : Stack}
    (htokens : ∀ token ∈ tokens, Text.Spelled p token.text) (hs : ∀ v ∈ s.values, v.Spelled p)
    (h : evalTokens limit levels tokens s = .ok () s') : ∀ v ∈ s'.values, v.Spelled p := by
  induction tokens generalizing s with
  | nil =>
    cases h
    exact hs
  | cons token tokens ih =>
    have hkeeps : Keeps (Value.Spelled p) (fun _ => True) (evalToken limit (levelBelow? limit levels) token.text) :=
      keeps_evalToken (spells_levelBelow? limit levels) (htokens token List.mem_cons_self)
    cases hrun : evalToken limit (levelBelow? limit levels) token.text s with
    | error cause s₁ =>
      rw [evalTokens_cons_of_error hrun] at h
      cases h
    | ok _ s₁ =>
      rw [evalTokens_cons_of_ok hrun] at h
      have hs₁ := (hkeeps s () s₁ hs hrun).2
      exact ih (fun token' htoken' => htokens token' (List.mem_cons_of_mem token htoken')) hs₁ h

end Spelled

end StackLang
