import StackLang.Proofs.Invocation
import StackLang.Proofs.Spacing

/-!
# What parameters stand for

A word of a lambda's body that is made of an `x` and an index refers to a parameter. Parameters are numbered from the
top of the stack on, so a lambda whose body is a list of such words picks its arguments out by their positions. It can
repeat, drop and rearrange them.

An index without an argument is unbound, and the lambda fails. But this is noticed only for an index below the bound of
counts. The digits of a greater one are not taken for an index, so the word is evaluated as any other text that is no
word of the language: it becomes a string.
-/

namespace StackLang

open Literal (parameterIndex? countBound lambdaText)

/-! ## Words that refer to parameters -/

/-- A number as a text in base ten. -/
def Text.decimal (n : Nat) : String := String.ofList (numeral n)

/-- The word that refers to a parameter by the digits of its index. -/
def Literal.reference (digits : String) : String := "x" ++ digits

/-- The lambda literal with `n` parameters whose body is a list of words. -/
def Literal.ofWords (n : Nat) (words : List String) : String :=
  lambdaText (Text.decimal n) (" ".intercalate words)

open Literal (reference ofWords)

/-- The characters of a reference. -/
theorem Literal.toList_reference (digits : String) : (reference digits).toList = 'x' :: digits.toList := by
  simp [reference]

/-- Reading a number in base ten gives the number. -/
theorem Text.numeralValue_decimal (n : Nat) : numeralValue (decimal n).toList = n := by
  rw [decimal, String.toList_ofList, numeralValue_numeral]

/-- Numbers in base ten are numerals. -/
theorem Text.isNumeral_decimal (n : Nat) : isNumeral (decimal n).toList = true := by
  rw [decimal, String.toList_ofList, Integer.isNumeral_numeral]

/-- Whether a value is evaluated where a parameter stands for it. -/
def Value.isForced : Value → Bool
  | symbol _ | lambda _ => true
  | _ => false

section

variable {digits : String} (hdigits : Text.isNumeral digits.toList = true)
include hdigits

/-- The index of a reference is the value of its digits, if that is below the bound of counts. -/
theorem Literal.parameterIndex?_reference :
    parameterIndex? (reference digits).toList =
      if Text.numeralValue digits.toList < countBound then some (Text.numeralValue digits.toList) else none := by
  simp [parameterIndex?, toList_reference, hdigits]

/-- A reference is a token. -/
theorem Token.lexeme_reference : Lexeme (reference digits).toList [] := by
  obtain ⟨d, ds, hcons, hall⟩ := Word.exists_cons_of_isNumeral hdigits
  rw [Literal.toList_reference, hcons]
  refine .bare (by decide) (by decide) (by decide) ?_ nofun
  exact List.forall_mem_cons.mpr ⟨rfl, fun c hc => Text.isBlank_of_isDigit (hall c hc)⟩

/-- A reference is no word of the language. The only word that it starts with is the cross product. -/
theorem Word.ofChars?_reference : ofChars? (reference digits).toList = none := by
  have hcandidates (cs : List Char) : candidates ('x' :: cs) = [(.binary .cross, 1)] := rfl
  obtain ⟨d, ds, hcons, -⟩ := Word.exists_cons_of_isNumeral hdigits
  rw [ofChars?, Literal.toList_reference, hcandidates, hcons]
  rfl

/-- Evaluated as a token, a reference becomes a string. -/
theorem evalToken_reference (limit : Nat) (below? : Option Level) :
    evalToken limit below? (reference digits) = Stack.push (.string (reference digits)) := by
  have htext := Literal.toList_reference digits
  have hcontents : stringContents (reference digits).toList = (reference digits).toList := by
    rw [htext]
    rfl
  rw [evalToken_of_first htext (by decide) (by decide) (by decide), Word.ofChars?_reference hdigits, hcontents,
    String.ofList_toList]

end

section

variable {word : String} {index : Nat} {arguments : List Value}

/-- A parameter without an argument is unbound. -/
theorem lambdaWord_unbound (hword : parameterIndex? word.toList = some index) (hindex : arguments.length ≤ index)
    (level : Level) (literal : String) :
    lambdaWord level literal arguments word = throw (.unboundParameter index arguments.length) := by
  have hnone : arguments[index]? = none := List.getElem?_eq_none hindex
  simp only [lambdaWord, if_neg (Literal.ne_selfWord hword), hword, hnone]

/-- A parameter whose argument is not forced stands for it. -/
theorem lambdaWord_bound {v : Value} (hword : parameterIndex? word.toList = some index)
    (hargument : arguments[index]? = some v) (hv : v.isForced = false) (level : Level) (literal : String) :
    lambdaWord level literal arguments word = Stack.push v := by
  simp only [lambdaWord, if_neg (Literal.ne_selfWord hword), hword, hargument]
  cases v with
  | symbol text => cases hv
  | lambda text => cases hv
  | _ => rfl

end

/-! ## Lambdas that refer to their parameters -/

/-- Texts that are joined by blanks are spaced. -/
theorem Token.spaced_intercalate (texts : List String) : Spaced texts (" ".intercalate texts).toList := by
  rw [String.toList_intercalate]
  induction texts with
  | nil => exact .nil
  | cons text texts ih =>
    cases texts with
    | nil =>
      have hlast : Spaced [text] (text.toList ++ [] ++ []) := .cons nofun (fun h => absurd rfl h) .nil
      simpa using hlast
    | cons text' texts =>
      rw [List.map_cons, List.map_cons, List.intercalate_cons_cons]
      exact .cons (List.forall_mem_singleton.mpr rfl) (fun _ => List.cons_ne_nil _ _) ih

/-- Tokens that are joined by blanks are cut again. -/
theorem Token.scan_intercalate {texts : List String} (h : ∀ text ∈ texts, ∃ rest, Lexeme text.toList rest) :
    scan (" ".intercalate texts).toList = .ok texts := by
  have hnone : ∀ c ∈ ([] : List Char), Text.isBlank c = true := nofun
  obtain ⟨parts, last, hparsed, hparts⟩ := (spaced_intercalate texts).parsed hnone h
  have htexts := congrArg (List.map String.ofList) hparts
  simp only [List.map_map, Function.comp_def, String.ofList_toList, List.map_id'] at htexts
  have hscan := hparsed.scan_eq
  rwa [htexts] at hscan

/-- A lambda that has its arguments evaluates its words on what remains of the stack. -/
theorem runWords_apply {arity : Nat} {s : Stack} (h : arity ≤ s.size) (level : Level) (literal : String)
    (words : List String) :
    runWords level literal arity words s =
      words.forM (lambdaWord level literal (s.values.take arity)) (s.dropTop arity) := by
  have hpop := Stack.popN_apply arity s
  rw [if_neg (Nat.not_lt.mpr h)] at hpop
  exact bind_of_ok hpop

/-- A lambda whose words are tokens evaluates them on what remains of the stack. -/
theorem evalTokens_ofWords {n : Nat} (hn : n < countBound) {words : List String}
    (hwords : ∀ word ∈ words, ∃ rest, Token.Lexeme word.toList rest) {s : Stack} (hs : n ≤ s.size)
    {limit levels : Nat} {level : Level} (hlevel : levelBelow? limit (levels + 1) = some level) (line : Nat) :
    evalTokens limit (levels + 1) [⟨ofWords n words, line⟩] s =
      (words.forM (lambdaWord level (ofWords n words) (s.values.take n))).onLine line (s.dropTop n) := by
  have hvalue := Text.numeralValue_decimal n
  have hbound : Text.numeralValue (Text.decimal n).toList < countBound := by rwa [hvalue]
  have hreads := Literal.reads_lambdaText (Text.isNumeral_decimal n) hbound (Token.scan_intercalate hwords)
  rw [hvalue] at hreads
  rw [ofWords, evalTokens_of_reads hreads hlevel]
  simp only [StackStep.onLine, runWords_apply hs]

/-! ## Unbound parameters -/

section

variable {n : Nat} {digits : String} {s : Stack} (hdigits : Text.isNumeral digits.toList = true) (hs : n ≤ s.size)
include hdigits hs

/-- A lambda whose only word is a reference evaluates it on what remains of the stack. -/
theorem evalTokens_reference (hn : n < countBound) {limit levels : Nat} {level : Level}
    (hlevel : levelBelow? limit (levels + 1) = some level) (line : Nat) :
    evalTokens limit (levels + 1) [⟨ofWords n [reference digits], line⟩] s =
      (lambdaWord level (ofWords n [reference digits]) (s.values.take n) (reference digits)).onLine line
        (s.dropTop n) := by
  have hwords : ∀ word ∈ [reference digits], ∃ rest, Token.Lexeme word.toList rest :=
    List.forall_mem_singleton.mpr ⟨[], Token.lexeme_reference hdigits⟩
  rw [evalTokens_ofWords hn hwords hs hlevel]
  simp [List.forM]

/-- A reference to a parameter that is not there fails, if its index is below the bound of counts. -/
theorem evalTokens_reference_unbound (hbeyond : n ≤ Text.numeralValue digits.toList)
    (hindex : Text.numeralValue digits.toList < countBound) (limit levels line : Nat) :
    evalTokens limit (levels + 1) [⟨ofWords n [reference digits], line⟩] s =
      .error ⟨line, .unboundParameter (Text.numeralValue digits.toList) n⟩ (s.dropTop n) := by
  have hlength : (s.values.take n).length = n := by
    rw [List.length_take, ← s.size_eq, Nat.min_eq_left hs]
  have hword : parameterIndex? (reference digits).toList = some (Text.numeralValue digits.toList) := by
    rw [Literal.parameterIndex?_reference hdigits, if_pos hindex]
  rw [evalTokens_reference hdigits hs (by omega) rfl, lambdaWord_unbound hword (by omega), hlength]
  rfl

/-- A reference with an index that is not below the bound of counts is a text like any other. -/
theorem evalTokens_reference_of_le (hn : n < countBound) (hindex : countBound ≤ Text.numeralValue digits.toList)
    (limit levels line : Nat) :
    evalTokens limit (levels + 1) [⟨ofWords n [reference digits], line⟩] s =
      Stack.pushAt line (.string (reference digits)) (s.dropTop n) := by
  have hword : refersToLambda (reference digits) = false := by
    have hself : reference digits ≠ selfWord := by
      intro h
      have htext := congrArg String.toList h
      rw [Literal.toList_reference] at htext
      cases htext
    simp [refersToLambda, hself, Literal.parameterIndex?_reference hdigits, Nat.not_lt.mpr hindex]
  rw [evalTokens_reference hdigits hs hn rfl, lambdaWord_of_refersToLambda hword]
  simp only [evalToken_reference hdigits, Stack.pushAt_eq]

end

/-- A lambda that refers to a parameter which it does not have fails, if the index is below the bound of counts. The
arguments that it does have are then taken off the stack. With a greater index it puts the word on the stack as a
string. -/
theorem evalTokens_reference_beyond {n : Nat} {digits : String} {s : Stack}
    (hdigits : Text.isNumeral digits.toList = true) (hs : n ≤ s.size)
    (hbeyond : n ≤ Text.numeralValue digits.toList) (limit levels line : Nat) :
    (Text.numeralValue digits.toList < countBound →
      evalTokens limit (levels + 1) [⟨ofWords n [reference digits], line⟩] s =
        .error ⟨line, .unboundParameter (Text.numeralValue digits.toList) n⟩ (s.dropTop n)) ∧
    (n < countBound → countBound ≤ Text.numeralValue digits.toList →
      evalTokens limit (levels + 1) [⟨ofWords n [reference digits], line⟩] s =
        Stack.pushAt line (.string (reference digits)) (s.dropTop n)) := by
  constructor
  · intro hindex
    exact evalTokens_reference_unbound hdigits hs hbeyond hindex limit levels line
  · intro hn hindex
    exact evalTokens_reference_of_le hdigits hs hn hindex limit levels line

/-- Leading zeros are no part of the index that is reported. -/
theorem evalTokens_reference_beyond_padded :
    evalTokens 1 1 [⟨"\x7b1 | x007\x7d", 3⟩] (.ofList 2 [.boolean true]) =
      .error ⟨3, .unboundParameter 7 1⟩ (.ofList 2 []) := by
  have htext : "\x7b1 | x007\x7d" = ofWords 1 [reference "007"] := by decide
  have hdigits : Text.isNumeral "007".toList = true := by decide
  have hs : 1 ≤ (Stack.ofList 2 [.boolean true]).size := by decide
  rw [htext]
  exact (evalTokens_reference_beyond hdigits hs (by decide) 1 0 3).1 (by decide)

/-- The first index that is no count does not fail, although the lambda has no parameters at all. -/
theorem evalTokens_reference_not_unbound :
    evalTokens 1 1 [⟨"\x7b0 | x18446744073709551616\x7d", 1⟩] (.empty 1) =
      .ok () (.ofList 1 [.string "x18446744073709551616"]) := by
  have htext : "\x7b0 | x18446744073709551616\x7d" = ofWords 0 [reference "18446744073709551616"] := by decide
  have hdigits : Text.isNumeral "18446744073709551616".toList = true := by decide
  rw [htext]
  exact evalTokens_reference_of_le hdigits (Nat.zero_le _) (by decide) (by decide) 1 0 1

/-! ## Lambdas that select their arguments -/

section

variable {n : Nat} (hn : n < countBound) {arguments : Fin n → Value} (hforced : ∀ i, (arguments i).isForced = false)
include hn hforced

/-- A reference to a parameter that is there puts its argument on the stack. -/
theorem lambdaWord_reference (level : Level) (literal : String) (i : Fin n) :
    lambdaWord level literal (List.ofFn arguments) (reference (Text.decimal i.val)) = Stack.push (arguments i) := by
  have hindex : i.val < countBound := Nat.lt_trans i.isLt hn
  have hword : parameterIndex? (reference (Text.decimal i.val)).toList = some i.val := by
    rw [Literal.parameterIndex?_reference (Text.isNumeral_decimal i.val), Text.numeralValue_decimal, if_pos hindex]
  have hargument : (List.ofFn arguments)[i.val]? = some (arguments i) := by simp
  exact lambdaWord_bound hword hargument (hforced i) level literal

/-- References to parameters put their arguments on the stack one after another, as long as there is room. -/
theorem forM_lambdaWord_references (level : Level) (literal : String) {indices : List (Fin n)} {s : Stack}
    (hroom : s.size + indices.length ≤ s.capacity) :
    (indices.map fun i => reference (Text.decimal i.val)).forM (lambdaWord level literal (List.ofFn arguments)) s =
      .ok () (Stack.ofList s.capacity ((indices.map arguments).reverse ++ s.values)) := by
  induction indices generalizing s with
  | nil => exact congrArg (EStateM.Result.ok ()) (Stack.ext rfl rfl)
  | cons i indices ih =>
    rw [List.length_cons] at hroom
    have hpush : lambdaWord level literal (List.ofFn arguments) (reference (Text.decimal i.val)) s =
        .ok () (s.cons (arguments i)) := by
      rw [lambdaWord_reference hn hforced, Stack.push_apply, if_neg (by omega)]
    have hrest : (s.cons (arguments i)).size + indices.length ≤ (s.cons (arguments i)).capacity := by
      change s.size + 1 + indices.length ≤ s.capacity
      omega
    have hstack : ((i :: indices).map arguments).reverse ++ s.values =
        (indices.map arguments).reverse ++ (s.cons (arguments i)).values := by
      simp [Stack.cons]
    rw [hstack]
    exact (bind_of_ok hpush).trans (ih hrest)

/-- A lambda whose body refers to parameters takes its arguments off the stack and puts those that are referred to on
what remains. -/
theorem evalTokens_references {indices : List (Fin n)} {rest : List Value} {s : Stack}
    (hs : s.values = List.ofFn arguments ++ rest) (hroom : rest.length + indices.length ≤ s.capacity)
    (limit levels line : Nat) :
    evalTokens limit (levels + 1) [⟨ofWords n (indices.map fun i => reference (Text.decimal i.val)), line⟩] s =
      .ok () (Stack.ofList s.capacity ((indices.map arguments).reverse ++ rest)) := by
  have hsize : s.size = n + rest.length := by
    rw [s.size_eq, hs, List.length_append, List.length_ofFn]
  have harguments : s.values.take n = List.ofFn arguments := by
    rw [hs, List.take_left' List.length_ofFn]
  have hrest : (s.dropTop n).values = rest := by
    change s.values.drop n = rest
    rw [hs, List.drop_left' List.length_ofFn]
  have hremain : (s.dropTop n).size + indices.length ≤ (s.dropTop n).capacity := by
    change s.size - n + indices.length ≤ s.capacity
    omega
  have hwords : ∀ word ∈ indices.map (fun i => reference (Text.decimal i.val)),
      ∃ rest, Token.Lexeme word.toList rest := by
    intro word hword
    obtain ⟨i, -, rfl⟩ := List.mem_map.mp hword
    exact ⟨[], Token.lexeme_reference (Text.isNumeral_decimal i.val)⟩
  rw [evalTokens_ofWords hn hwords (by omega) rfl, harguments, ← hrest]
  exact StackStep.onLine_of_ok (forM_lambdaWord_references hn hforced _ _ hremain) line

end

/-- A lambda selects its arguments by position, for any number of parameters that a literal can have. If its body refers
to parameters by their indices, it leaves the arguments with these indices, in the order of the references, on what was
below the arguments. The first parameter stands for the top of the stack. -/
theorem evalTokens_selects {n : Nat} (hn : n < countBound) (indices : List (Fin n)) {arguments : Fin n → Value}
    (hforced : ∀ i, (arguments i).isForced = false) {below : List Value} {s : Stack}
    (hs : s.toList = below ++ (List.ofFn arguments).reverse) (hroom : below.length + indices.length ≤ s.capacity)
    (limit levels line : Nat) :
    ∃ s', evalTokens limit (levels + 1) [⟨ofWords n (indices.map fun i => reference (Text.decimal i.val)), line⟩] s =
        .ok () s' ∧ s'.toList = below ++ indices.map arguments ∧ s'.capacity = s.capacity := by
  have hvalues : s.values = List.ofFn arguments ++ below.reverse := by
    have hreverse := congrArg List.reverse hs
    simpa [Stack.toList] using hreverse
  rw [← List.length_reverse] at hroom
  refine ⟨_, evalTokens_references hn hforced hvalues hroom limit levels line, ?_, rfl⟩
  simp [Stack.toList, Stack.ofList]

/-- The last of twelve arguments is taken twice and the first one once, and the rest are dropped. -/
theorem evalTokens_selects_last :
    let s := Stack.ofList 13 ((List.ofFn fun i : Fin 12 => .integer (Int64.ofNat i.val)) ++ [.symbol "DUP"])
    ∃ s', evalTokens 1 1 [⟨"\x7b12 | x11 x0 x11\x7d", 1⟩] s = .ok () s' ∧
      s'.toList = [.symbol "DUP", .integer 11, .integer 0, .integer 11] := by
  intro s
  have htext : "\x7b12 | x11 x0 x11\x7d" =
      ofWords 12 ([11, 0, 11].map fun i : Fin 12 => reference (Text.decimal i.val)) := by decide
  have hs : s.toList = [.symbol "DUP"] ++ (List.ofFn fun i : Fin 12 => .integer (Int64.ofNat i.val)).reverse := rfl
  obtain ⟨s', hrun, hlist, -⟩ := evalTokens_selects (by decide) [11, 0, 11] (fun _ => rfl) hs (by decide) 1 0 1
  rw [htext]
  exact ⟨s', hrun, hlist⟩

end StackLang
