import StackLang.Proofs.DepthCounter
import StackLang.Proofs.Grammar
import StackLang.Proofs.LambdaGrammar
import StackLang.Proofs.Quoting

/-!
# Invoking lambdas

A lambda literal is read in two steps, into a count with a body and into the words of the body. A literal that
can be read is invoked by evaluating its words one level deeper.

A lambda without parameters whose words do not refer to it is therefore its body: its words are the tokens that
the body is cut into, and they are evaluated as tokens are.
-/

namespace StackLang

open Literal (readLambda readBody parameterIndex?)

/-- Whether a text is a lambda literal with the given parts and words. -/
structure Literal.Reads (literal : String) (lambda : Lambda) (words : List String) : Prop where
  brace : literal.toList.head? = some '\x7b'
  parts : readLambda literal.toList = .ok lambda
  words : Token.scan lambda.body = .ok words

/-- Takes the arguments of a lambda off the stack and evaluates its words on a level. -/
def runWords (level : Level) (literal : String) (arity : Nat) (words : List String) : StackStep Unit := do
  let arguments ← Stack.popN arity
  words.forM (lambdaWord level literal arguments)

section

variable {literal : String} {lambda : Literal.Lambda} {words : List String} {limit : Nat} {below? : Option Level}

/-- The words of a body are those that it is cut into. -/
theorem Literal.readBody_eq_ok_iff {literal body : List Char} :
    readBody literal body = .ok words ↔ Token.scan body = .ok words := by
  unfold readBody
  cases Token.scan body with
  | ok words' => simp
  | error cause => cases cause <;> simp [malformed]

/-- A body that leaves a literal open makes its lambda malformed, before the stack is changed. -/
theorem invoke_of_open {kind : OpenLiteral} (hparts : readLambda literal.toList = .ok lambda)
    (hbody : Token.scan lambda.body = .error (.unterminated kind)) (s : Stack) :
    invoke limit below? literal s = .error (.malformedLiteral literal (.unreadableBody kind)) s := by
  have hread : readBody literal.toList lambda.body = .error (.malformedLiteral literal (.unreadableBody kind)) := by
    rw [readBody, hbody]
    simp only [Literal.malformed, String.ofList_toList]
  rw [invoke, hparts]
  change (StackStep.lift (readBody literal.toList lambda.body) >>= _) s = _
  rw [hread]
  rfl

/-- A lambda that can be read is invoked by evaluating its words one level deeper. -/
theorem invoke_of_reads (h : Literal.Reads literal lambda words) :
    invoke limit below? literal =
      nested limit below? fun level => runWords level literal lambda.arity words := by
  rw [invoke, h.parts]
  change (StackStep.lift (readBody literal.toList lambda.body) >>= _) = _
  rw [Literal.readBody_eq_ok_iff.mpr h.words]
  rfl

/-- A text that starts with a brace is invoked. -/
theorem evalToken_of_brace (h : literal.toList.head? = some '\x7b') :
    evalToken limit below? literal = invoke limit below? literal := by
  obtain ⟨rest, hrest⟩ := List.head?_eq_some_iff.mp h
  simp only [evalToken, hrest]

/-- A lambda literal that can be read is evaluated by evaluating its words one level deeper. -/
theorem evalTokens_of_reads {levels : Nat} {level : Level} (h : Literal.Reads literal lambda words)
    (hlevel : levelBelow? limit (levels + 1) = some level) (line : Nat) :
    evalTokens limit (levels + 1) [⟨literal, line⟩] = (runWords level literal lambda.arity words).onLine line := by
  rw [evalTokens_singleton, evalToken_of_brace h.brace, invoke_of_reads h, hlevel]
  rfl

end

/-! ## Literals that are put together -/

namespace Literal

/-- The lambda literal with a parameter count and a body. -/
def lambdaText (count body : String) : String := "\x7b" ++ count ++ " | " ++ body ++ "\x7d"

variable {count : String} (hcount : Text.isNumeral count.toList = true)
include hcount

/-- Reading a lambda literal gives its parameter count, which has to be below the bound, and its body without the
blanks around it. -/
theorem readLambda_lambdaText (body : String) :
    readLambda (lambdaText count body).toList =
      if Text.numeralValue count.toList < countBound then
        .ok { arity := Text.numeralValue count.toList, body := Text.trim body.toList }
      else .error .literalTooLarge := by
  have hfront : Text.Padded count.toList (count.toList ++ [' ']) :=
    (Text.Padded.refl count.toList).append_gap (List.forall_mem_singleton.mpr rfl)
  have hbar : '|' ∉ count.toList ++ [' '] := by
    refine hfront.not_mem rfl fun hmem => ?_
    obtain ⟨d, ds, hdigits, hall⟩ := Word.exists_cons_of_isNumeral hcount
    rw [hdigits] at hmem
    exact absurd (hall '|' hmem) (by decide)
  have htext : (lambdaText count body).toList =
      '\x7b' :: (count.toList ++ [' '] ++ '|' :: ' ' :: body.toList) ++ ['\x7d'] := by
    simp [lambdaText]
  have hform : LambdaForm count.toList (' ' :: body.toList) (lambdaText count body).toList :=
    .braces hcount hfront hbar (htext ▸ Text.Padded.refl _)
  rw [readLambda_of_form hform, Text.trim_blank_cons rfl]

/-- A lambda literal can be read if its parameter count is below the bound and its body can be cut into words. -/
theorem reads_lambdaText {body : String} {words : List String}
    (hbound : Text.numeralValue count.toList < countBound) (hwords : Token.scan body.toList = .ok words) :
    Reads (lambdaText count body) { arity := Text.numeralValue count.toList, body := Text.trim body.toList } words where
  brace := by simp [lambdaText]
  parts := by rw [readLambda_lambdaText hcount, if_pos hbound]
  words := (Token.scan_trim _).trans hwords

end Literal

/-! ## Lambdas without parameters -/

/-- The lambda literal without parameters that has a given body. -/
def Literal.constant (body : String) : String := lambdaText "0" body

/-- No parameters are counted by a numeral. -/
theorem Literal.isNumeral_zero : Text.isNumeral "0".toList = true := by decide

/-- Whether a word has a meaning of its own in a lambda's body: it stands for the lambda or for a parameter. -/
def refersToLambda (word : String) : Bool := word == selfWord || (parameterIndex? word.toList).isSome

/-- A word that refers to a parameter does not refer to the lambda itself. -/
theorem Literal.ne_selfWord {word : String} {index : Nat} (h : parameterIndex? word.toList = some index) :
    word ≠ selfWord := by
  rintro rfl
  cases h

/-- A word that does not refer to its lambda is evaluated as a token. -/
theorem lambdaWord_of_refersToLambda {word : String} (h : refersToLambda word = false) (level : Level)
    (literal : String) (arguments : List Value) : lambdaWord level literal arguments word = level.token word := by
  simp only [refersToLambda, Bool.or_eq_false_iff, beq_eq_false_iff_ne, Option.isSome_eq_false_iff,
    Option.isNone_iff_eq_none] at h
  simp only [lambdaWord, if_neg h.1, h.2]

/-- Words that do not refer to their lambda are evaluated as tokens. -/
theorem forM_lambdaWord {words : List String} (h : ∀ word ∈ words, refersToLambda word = false) (level : Level)
    (literal : String) (arguments : List Value) :
    words.forM (lambdaWord level literal arguments) = words.forM level.token := by
  induction words with
  | nil => rfl
  | cons word words ih =>
    have hrest := ih fun word' hword' => h word' (List.mem_cons_of_mem word hword')
    change (lambdaWord level literal arguments word >>= fun _ => words.forM _) = _
    rw [lambdaWord_of_refersToLambda (h word List.mem_cons_self), hrest]
    rfl

/-- Tokens on one line are evaluated as their texts are, and a failure is on this line. -/
theorem evalTokens_onLine (limit levels line : Nat) (words : List String) :
    evalTokens limit levels (words.map fun text => { text, line }) =
      (words.forM (evalToken limit (levelBelow? limit levels))).onLine line := by
  rw [evalTokens, List.forM_eq_forM, List.forM_map]
  exact forM_eq_onLine (fun word => evalTokenAt_eq limit levels line word) words

/-- A lambda without parameters whose words do not refer to it has the outcome of the tokens of its body one level
deeper. -/
theorem evalTokens_constant_eq {body : String} {words : List String} (hwords : Token.scan body.toList = .ok words)
    (hrefers : ∀ word ∈ words, refersToLambda word = false) (limit levels line : Nat) :
    evalTokens limit (levels + 1) [⟨Literal.constant body, line⟩] =
      evalTokens limit levels (words.map fun text => { text, line }) := by
  have hreads : Literal.Reads (Literal.constant body) { arity := 0, body := Text.trim body.toList } words :=
    Literal.reads_lambdaText Literal.isNumeral_zero (by decide) hwords
  have hpop : Stack.popN 0 = pure [] := by
    funext s
    rw [Stack.popN_apply, if_neg (Nat.not_lt_zero _)]
    rfl
  rw [evalTokens_of_reads hreads rfl, evalTokens_onLine, runWords, hpop, pure_bind, forM_lambdaWord hrefers]

/-- A lambda without parameters whose body leaves a literal open is malformed. -/
theorem evalTokens_constant_of_open {body : String} {kind : OpenLiteral}
    (h : Token.scan body.toList = .error (.unterminated kind)) (limit levels line : Nat) (s : Stack) :
    evalTokens limit levels [⟨Literal.constant body, line⟩] s =
      .error ⟨line, .malformedLiteral (Literal.constant body) (.unreadableBody kind)⟩ s := by
  have hbrace : (Literal.constant body).toList.head? = some '\x7b' := by
    simp [Literal.constant, Literal.lambdaText]
  apply evalTokens_cons_of_error
  rw [evalToken_of_brace hbrace]
  exact invoke_of_open (Literal.readLambda_lambdaText Literal.isNumeral_zero body) ((Token.scan_trim _).trans h) s

/-- A lambda without parameters whose words do not refer to it has the outcome that the tokens of its body have
under a limit on nesting that is lower by one, except that the limit is reported as it is. If its body leaves a
literal open, the lambda is malformed and the stack stays as it is. -/
theorem evalTokens_constant (limit levels line : Nat) (body : String) (s : Stack) :
    (∀ tokens, Token.ofLine line body.toList = .ok tokens →
      (∀ token ∈ tokens, refersToLambda token.text = false) →
      evalTokens (limit + 1) (levels + 1) [⟨Literal.constant body, line⟩] s =
        Outcome.withLevels 1 (evalTokens limit levels tokens s)) ∧
    ∀ e, Token.ofLine line body.toList = .error e →
      ∃ kind, e = ⟨line, .unterminated kind⟩ ∧
        evalTokens limit levels [⟨Literal.constant body, line⟩] s =
          .error ⟨line, .malformedLiteral (Literal.constant body) (.unreadableBody kind)⟩ s := by
  unfold Token.ofLine
  cases hscan : Token.scan body.toList with
  | ok words =>
    refine ⟨?_, nofun⟩
    rintro _ ⟨⟩ hrefers
    have hwords : ∀ word ∈ words, refersToLambda word = false := by
      intro word hword
      exact hrefers { text := word, line } (List.mem_map.mpr ⟨word, hword, rfl⟩)
    rw [evalTokens_constant_eq hscan hwords, evalTokens_raise]
  | error cause =>
    refine ⟨nofun, ?_⟩
    rintro _ ⟨⟩
    obtain ⟨kind, rfl⟩ := Token.scan_error hscan
    exact ⟨kind, rfl, evalTokens_constant_of_open hscan limit levels line s⟩

/-- A body may hold a closing brace in a string. Forcing this string runs into a limit of one inside the lambda, and
into a limit of zero without it. A body with an open string is refused. -/
theorem evalTokens_constant_limit :
    (Token.ofLine 4 "\"\x7d\" EVAL".toList = .ok [⟨"\"\x7d\"", 4⟩, ⟨"EVAL", 4⟩] ∧
      evalTokens 0 0 [⟨"\"\x7d\"", 4⟩, ⟨"EVAL", 4⟩] (.empty 2) = .error ⟨4, .recursionLimit 0⟩ (.empty 2) ∧
      evalTokens 1 1 [⟨"\x7b0 | \"\x7d\" EVAL\x7d", 4⟩] (.empty 2) = .error ⟨4, .recursionLimit 1⟩ (.empty 2)) ∧
    Token.ofLine 4 "\"".toList = .error ⟨4, .unterminated .string⟩ ∧
      evalTokens 1 1 [⟨"\x7b0 | \"\x7d", 4⟩] (.empty 2) =
        .error ⟨4, .malformedLiteral "\x7b0 | \"\x7d" (.unreadableBody .string)⟩ (.empty 2) := by
  have htail : Token.scan [' ', 'E', 'V', 'A', 'L'] = .ok ["EVAL"] := by
    have hblank : ∀ c ∈ [' '], Text.isBlank c = true := List.forall_mem_singleton.mpr rfl
    exact (Token.scan_gap_append hblank ['E', 'V', 'A', 'L']).trans (Token.scan_single rfl rfl)
  have htokens : Token.ofLine 4 "\"\x7d\" EVAL".toList = .ok [⟨"\"\x7d\"", 4⟩, ⟨"EVAL", 4⟩] := by
    have hinside : '"' ∉ ['\x7d'] := by simp
    have hstring : Token.Lexeme ['"', '\x7d', '"'] [' ', 'E', 'V', 'A', 'L'] := .string hinside
    have hscan : Token.scan "\"\x7d\" EVAL".toList = .ok ["\"\x7d\"", "EVAL"] := by
      rw [hstring.scan_eq rfl, htail]
      rfl
    rw [Token.ofLine, hscan]
    rfl
  have hopen : Token.ofLine 4 "\"".toList = .error ⟨4, .unterminated .string⟩ := by
    have hstring : Token.LeftOpen .string ['"'] := .string List.not_mem_nil
    have hscan : Token.scan "\"".toList = .error (.unterminated .string) := hstring.scan_eq rfl
    rw [Token.ofLine, hscan]
  have hdirect : evalTokens 0 0 [⟨"\"\x7d\"", 4⟩, ⟨"EVAL", 4⟩] (.empty 2) =
      .error ⟨4, .recursionLimit 0⟩ (.empty 2) := rfl
  have hrefers : ∀ token ∈ [Token.mk "\"\x7d\"" 4, ⟨"EVAL", 4⟩], refersToLambda token.text = false :=
    List.forall_mem_cons.mpr ⟨by decide, List.forall_mem_singleton.mpr (by decide)⟩
  have hinlined := (evalTokens_constant 0 0 4 "\"\x7d\" EVAL" (.empty 2)).1 _ htokens hrefers
  rw [hdirect] at hinlined
  obtain ⟨kind, hkind, hrefused⟩ := (evalTokens_constant 1 1 4 "\"" (.empty 2)).2 _ hopen
  cases hkind
  exact ⟨⟨htokens, hdirect, hinlined⟩, hopen, hrefused⟩

end StackLang
