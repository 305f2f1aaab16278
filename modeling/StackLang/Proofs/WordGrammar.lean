import Mathlib.Computability.RegularExpressions
import Mathlib.Data.Nat.Digits.Defs
import StackLang.Proofs.ArrayGrammar
import StackLang.Proofs.Quoting

/-!
# The grammar of words

An integer is a run of digits with an optional minus sign, a float has a point and more digits behind it, and every
other word has one spelling. These forms overlap at the start of a text: `-` and `-1`, `1` and `1.5`, `<` and `<=>`,
`ROLL` and `ROLLD`. They do not overlap on whole texts. So there is at most one longest word at the start of a text,
and a text is a word exactly if one of the forms is that of the whole text.

Integers may have any number of digits. Evaluating one, quoted or not, puts the integer with its value in base ten on
the stack, or fails because the value is out of range.
-/

namespace StackLang

/-! ## Patterns -/

namespace Pattern

open RegularExpression (char)

/-- One of some characters. -/
def oneOf (chars : List Char) : RegularExpression Char := chars.foldr (fun c others => char c + others) 0

/-- A digit. -/
def digit : RegularExpression Char := oneOf ['0', '1', '2', '3', '4', '5', '6', '7', '8', '9']

/-- One or more digits. -/
def digits : RegularExpression Char := digit * digit.star

/-- One or more digits, with a minus sign or without. -/
def integer : RegularExpression Char := (1 + char '-') * digits

/-- One or more digits on both sides of a point, with a minus sign or without. -/
def float : RegularExpression Char := (1 + char '-') * digits * char '.' * digits

variable {cs : List Char}

/-- The texts that are one of some characters. -/
theorem mem_oneOf {chars : List Char} : cs ∈ (oneOf chars).matches' ↔ ∃ c ∈ chars, cs = [c] := by
  induction chars with
  | nil => simp [oneOf]
  | cons c chars ih =>
    change cs ∈ ({[c]} : Language Char) + (oneOf chars).matches' ↔ _
    rw [Language.mem_add, ih, List.exists_mem_cons_iff]
    rfl

/-- The digits are the characters from zero to nine. -/
theorem mem_digitChars {c : Char} : c ∈ ['0', '1', '2', '3', '4', '5', '6', '7', '8', '9'] ↔ c.isDigit = true := by
  constructor
  · intro h
    have hall : ['0', '1', '2', '3', '4', '5', '6', '7', '8', '9'].all Char.isDigit = true := by decide
    exact List.all_eq_true.mp hall c h
  · intro h
    obtain ⟨hlow, hhigh⟩ : 48 ≤ c.toNat ∧ c.toNat ≤ 57 := Char.isDigit_iff_toNat.mp h
    have hcodes : ∀ k < 10, Char.ofNat (48 + k) ∈ ['0', '1', '2', '3', '4', '5', '6', '7', '8', '9'] := by decide
    have hc := hcodes (c.toNat - 48) (by omega)
    rwa [Nat.add_sub_cancel' hlow, Char.ofNat_toNat] at hc

/-- The texts that are a digit. -/
theorem mem_digit : cs ∈ digit.matches' ↔ ∃ c, c.isDigit = true ∧ cs = [c] := by
  rw [digit, mem_oneOf]
  exact exists_congr fun c => and_congr_left fun _ => mem_digitChars

/-- Any number of digits, one after another, are a text of digits. -/
theorem mem_star_digit : cs ∈ digit.star.matches' ↔ ∀ c ∈ cs, c.isDigit = true := by
  rw [RegularExpression.matches'_star, Language.mem_kstar]
  constructor
  · rintro ⟨parts, rfl, hparts⟩ c hc
    obtain ⟨part, hpart, hc⟩ := List.mem_flatten.mp hc
    obtain ⟨d, hd, rfl⟩ := mem_digit.mp (hparts part hpart)
    rwa [List.mem_singleton.mp hc]
  · intro h
    refine ⟨cs.map fun c => [c], by rw [← List.flatMap_def, List.flatMap_singleton'], fun part hpart => ?_⟩
    obtain ⟨c, hc, rfl⟩ := List.mem_map.mp hpart
    exact mem_digit.mpr ⟨c, h c hc, rfl⟩

/-- One or more digits are a numeral. -/
theorem mem_digits : cs ∈ digits.matches' ↔ Text.isNumeral cs = true := by
  rw [digits, RegularExpression.matches'_mul, Language.mem_mul]
  constructor
  · rintro ⟨first, hfirst, rest, hrest, rfl⟩
    obtain ⟨d, hd, rfl⟩ := mem_digit.mp hfirst
    simpa [Text.isNumeral, hd] using mem_star_digit.mp hrest
  · intro h
    obtain ⟨d, ds, rfl, hall⟩ := Word.exists_cons_of_isNumeral h
    obtain ⟨hd, hds⟩ := List.forall_mem_cons.mp hall
    exact ⟨[d], mem_digit.mpr ⟨d, hd, rfl⟩, ds, mem_star_digit.mpr hds, rfl⟩

/-- The pattern of integers matches the runs of digits, with a minus sign or without. -/
theorem mem_integer : cs ∈ integer.matches' ↔ Word.IsIntegerText cs := by
  rw [integer, RegularExpression.matches'_mul, Language.mem_mul]
  constructor
  · rintro ⟨sign, rfl | rfl, digits, hdigits, rfl⟩
    · exact ⟨digits, mem_digits.mp hdigits, .inl rfl⟩
    · exact ⟨digits, mem_digits.mp hdigits, .inr rfl⟩
  · rintro ⟨digits, hdigits, rfl | rfl⟩
    · exact ⟨[], .inl rfl, cs, mem_digits.mpr hdigits, rfl⟩
    · exact ⟨['-'], .inr rfl, digits, mem_digits.mpr hdigits, rfl⟩

end Pattern

/-! ## Floats -/

namespace Word

/-- Whether a text is an integer, a point and a run of digits. -/
def IsFloatText (cs : List Char) : Prop :=
  ∃ whole fraction, IsIntegerText whole ∧ Text.isNumeral fraction = true ∧ cs = whole ++ '.' :: fraction

/-- The pattern of floats matches an integer, a point and a run of digits. -/
theorem mem_floatPattern {cs : List Char} : cs ∈ Pattern.float.matches' ↔ IsFloatText cs := by
  change cs ∈ Pattern.integer.matches' * {['.']} * Pattern.digits.matches' ↔ _
  constructor
  · rintro ⟨_, ⟨whole, hwhole, _, rfl, rfl⟩, fraction, hfraction, rfl⟩
    exact ⟨whole, fraction, Pattern.mem_integer.mp hwhole, Pattern.mem_digits.mp hfraction, by simp⟩
  · rintro ⟨whole, fraction, hwhole, hfraction, rfl⟩
    have hpoint : whole ++ ['.'] ∈ Pattern.integer.matches' * {['.']} :=
      ⟨whole, Pattern.mem_integer.mpr hwhole, ['.'], rfl, rfl⟩
    exact ⟨whole ++ ['.'], hpoint, fraction, Pattern.mem_digits.mpr hfraction, by simp⟩

/-- A float at the start of a text is found together with the digits that follow it. -/
theorem floatLength?_append {start : List Char} (h : IsFloatText start) (rest : List Char) :
    floatLength? (start ++ rest) = some (start.length + (rest.takeWhile Char.isDigit).length) := by
  obtain ⟨whole, fraction, hwhole, hfraction, rfl⟩ := h
  obtain ⟨d, ds, rfl, hall⟩ := exists_cons_of_isNumeral hfraction
  have htake : (d :: (ds ++ rest)).takeWhile Char.isDigit = d :: ds ++ rest.takeWhile Char.isDigit :=
    List.takeWhile_append_of_pos hall
  -- The integer ends at the point, which is no digit.
  have hinteger : integerLength? (whole ++ '.' :: d :: (ds ++ rest)) = some whole.length :=
    integerLength?_append hwhole _
  rw [List.append_assoc, List.cons_append, List.cons_append, floatLength?, hinteger]
  simp only [Option.bind_eq_bind, Option.bind_some, List.drop_left, htake, List.cons_append, List.length_cons,
    List.length_append]
  exact congrArg some (by omega)

/-- A float that is found stands at the start of the text. -/
theorem exists_of_floatLength? {cs : List Char} {length : Nat} (h : floatLength? cs = some length) :
    ∃ start, start <+: cs ∧ IsFloatText start ∧ start.length = length := by
  rw [floatLength?, Option.bind_eq_bind, Option.bind_eq_some_iff] at h
  obtain ⟨_, hinteger, h⟩ := h
  obtain ⟨whole, ⟨rest, rfl⟩, hwhole, rfl⟩ := exists_of_integerLength? hinteger
  rw [List.drop_left] at h
  split at h
  · rename_i rest
    split at h
    · cases h
    · rename_i digits hnone
      have hnumeral : Text.isNumeral (rest.takeWhile Char.isDigit) = true :=
        isNumeral_takeWhile fun hempty => hnone (by rw [hempty]; rfl)
      have hpoint : '.' :: rest.takeWhile Char.isDigit <+: '.' :: rest :=
        List.cons_prefix_cons.mpr ⟨rfl, List.takeWhile_prefix _⟩
      cases h
      refine ⟨whole ++ '.' :: rest.takeWhile Char.isDigit, ?_, ⟨whole, _, hwhole, hnumeral, rfl⟩, ?_⟩
      · exact (List.prefix_append_right_inj whole).mpr hpoint
      · rw [List.length_append, List.length_cons, Nat.add_right_comm, Nat.add_assoc]
  · cases h

/-! ## Forms -/

/-- The words with a fixed spelling, written out. -/
def spelledOut : List (String × Word) :=
  [("true", boolean true), ("false", boolean false), ("+", binary .add), ("-", binary .sub), ("*", binary .mul),
    ("/", binary .div), ("**", binary .pow), ("%", binary .mod), ("==", binary .equal), ("!=", binary .notEqual),
    (">", binary .greater), ("<", binary .less), (">=", binary .greaterEqual), ("<=", binary .lessEqual),
    ("<=>", binary .compare), ("&", binary .bitAnd), ("|", binary .bitOr), ("^", binary .bitXor),
    ("<<", binary .shiftLeft), (">>", binary .shiftRight), ("x", binary .cross), ("!", unary .not),
    ("~", unary .complement), ("SWAP", stack .swap), ("DROP", stack .drop), ("DUP", stack .dup), ("ROT", stack .rot),
    ("ROLL", stack .roll), ("ROLLD", stack .rollDown), ("IFELSE", control .ifElse), ("TRANSP", control .transpose),
    ("EVAL", control .eval)]

/-- The words with a fixed spelling are those that are written out. -/
theorem mem_fixed_iff {entry : String × Word} : entry ∈ fixed ↔ entry ∈ spelledOut := Iff.rfl

/-- Whether a text as a whole has the form of a word. -/
inductive Form (cs : List Char) : Word → Prop
  | integer (h : cs ∈ Pattern.integer.matches') : Form cs .integer
  | float (h : cs ∈ Pattern.float.matches') : Form cs .float
  | spelled {spelling : String} {word : Word} (h : (spelling, word) ∈ spelledOut) (hcs : cs = spelling.toList) :
      Form cs word

/-- Whether a text starts with a word, and with no longer one. -/
structure Longest (cs start : List Char) (word : Word) : Prop where
  isPrefix : start <+: cs
  form : Form start word
  longest : ∀ start' word', start' <+: cs → Form start' word' → start'.length ≤ start.length

section

variable {cs start start' : List Char} {word word' : Word}

/-- An integer has a digit. -/
theorem IsIntegerText.exists_isDigit (h : IsIntegerText cs) : ∃ c ∈ cs, c.isDigit = true := by
  obtain ⟨digits, hdigits, hcs⟩ := h
  obtain ⟨d, ds, rfl, hall⟩ := exists_cons_of_isNumeral hdigits
  refine ⟨d, ?_, hall d List.mem_cons_self⟩
  rcases hcs with rfl | rfl <;> simp

/-- No fixed spelling has a digit. -/
theorem not_isDigit_of_mem_spelledOut : ∀ entry ∈ spelledOut, entry.1.toList.any Char.isDigit = false := by
  decide

/-- A text with a digit has no fixed spelling. -/
theorem ne_spelling_of_isDigit {spelling : String} (hdigit : ∃ c ∈ cs, c.isDigit = true)
    (h : (spelling, word) ∈ spelledOut) : cs ≠ spelling.toList := by
  rintro rfl
  have hany : spelling.toList.any Char.isDigit = true := List.any_eq_true.mpr hdigit
  rw [not_isDigit_of_mem_spelledOut _ h] at hany
  cases hany

/-- A float has a digit. -/
theorem IsFloatText.exists_isDigit (h : IsFloatText cs) : ∃ c ∈ cs, c.isDigit = true := by
  obtain ⟨whole, fraction, hwhole, -, rfl⟩ := h
  obtain ⟨c, hc, hdigit⟩ := hwhole.exists_isDigit
  exact ⟨c, List.mem_append_left _ hc, hdigit⟩

/-- An integer is no float, since it has no point. -/
theorem IsIntegerText.not_isFloatText (h : IsIntegerText cs) : ¬ IsFloatText cs := by
  rintro ⟨whole, fraction, -, -, rfl⟩
  have hpoint := h.mem (List.mem_append_right whole List.mem_cons_self)
  revert hpoint
  decide

/-- A text has the form of at most one word. -/
theorem Form.unique (h : Form cs word) (h' : Form cs word') : word = word' := by
  cases h with
  | integer h =>
    have hinteger := Pattern.mem_integer.mp h
    cases h' with
    | integer => rfl
    | float h' => exact absurd (mem_floatPattern.mp h') hinteger.not_isFloatText
    | spelled h' hcs => exact absurd hcs (ne_spelling_of_isDigit hinteger.exists_isDigit h')
  | float h =>
    have hfloat := mem_floatPattern.mp h
    cases h' with
    | integer h' => exact absurd hfloat (Pattern.mem_integer.mp h').not_isFloatText
    | float => rfl
    | spelled h' hcs => exact absurd hcs (ne_spelling_of_isDigit hfloat.exists_isDigit h')
  | spelled h hcs =>
    cases h' with
    | integer h' => exact absurd hcs (ne_spelling_of_isDigit (Pattern.mem_integer.mp h').exists_isDigit h)
    | float h' => exact absurd hcs (ne_spelling_of_isDigit (mem_floatPattern.mp h').exists_isDigit h)
    | spelled h' hcs' =>
      have hword := ofChars?_of_mem_fixed _ (mem_fixed_iff.mpr h)
      have hword' := ofChars?_of_mem_fixed _ (mem_fixed_iff.mpr h')
      rw [← hcs] at hword
      rw [← hcs'] at hword'
      exact Option.some.inj (hword.symm.trans hword')

/-- A longest word is the only one. -/
theorem Longest.unique (h : Longest cs start word) (h' : Longest cs start' word') : start = start' ∧ word = word' := by
  have hle := h.longest start' word' h'.isPrefix h'.form
  have hge := h'.longest start word h.isPrefix h.form
  have hstart : start = start' :=
    (List.prefix_of_prefix_length_le h.isPrefix h'.isPrefix hge).eq_of_length (Nat.le_antisymm hge hle)
  exact ⟨hstart, h.form.unique (hstart ▸ h'.form)⟩

/-! ## The longest word at the start of a text -/

/-- A word that is found stands at the start of the text. -/
theorem exists_form_of_mem_candidates {length : Nat} (h : (word, length) ∈ candidates cs) :
    ∃ start, start <+: cs ∧ Form start word ∧ start.length = length := by
  rcases cases_of_mem_candidates h with ⟨rfl, hfloat⟩ | ⟨rfl, hinteger⟩ | ⟨spelling, hmem, hstart, hlength⟩
  · obtain ⟨start, hstart, htext, hlength⟩ := exists_of_floatLength? hfloat
    exact ⟨start, hstart, .float (mem_floatPattern.mpr htext), hlength⟩
  · obtain ⟨start, hstart, htext, hlength⟩ := exists_of_integerLength? hinteger
    exact ⟨start, hstart, .integer (Pattern.mem_integer.mpr htext), hlength⟩
  · exact ⟨spelling.toList, hstart, .spelled (mem_fixed_iff.mp hmem) rfl, hlength⟩

/-- A word that stands at the start of a text is found there, and not at less than its length. -/
theorem Form.exists_mem_candidates (h : Form start word) (hstart : start <+: cs) :
    ∃ length, (word, length) ∈ candidates cs ∧ start.length ≤ length := by
  obtain ⟨rest, rfl⟩ := hstart
  cases h with
  | integer h =>
    have hlength := integerLength?_append (Pattern.mem_integer.mp h) rest
    refine ⟨start.length + (rest.takeWhile Char.isDigit).length, ?_, Nat.le_add_right _ _⟩
    simp [candidates, hlength]
  | float h =>
    have hlength := floatLength?_append (mem_floatPattern.mp h) rest
    refine ⟨start.length + (rest.takeWhile Char.isDigit).length, ?_, Nat.le_add_right _ _⟩
    simp [candidates, hlength]
  | @spelled spelling _ h hcs =>
    subst hcs
    have hstarts : spelling.toList.isPrefixOf (spelling.toList ++ rest) = true :=
      List.isPrefixOf_iff_prefix.mpr (List.prefix_append _ _)
    have hfound : (word, spelling.length) ∈ candidates (spelling.toList ++ rest) :=
      List.mem_append_right _ (List.mem_filterMap.mpr ⟨(spelling, word), mem_fixed_iff.mpr h, if_pos hstarts⟩)
    exact ⟨spelling.length, hfound, String.length_toList.le⟩

/-- There is a longest word unless there is none at all. -/
theorem longest?_eq_none_iff {words : List (Word × Nat)} : longest? words = none ↔ words = [] := by
  cases words with
  | nil => simp [longest?]
  | cons first words =>
    rw [longest?]
    split
    · simp
    · split <;> simp

/-- The longest of some words is no shorter than any of them. -/
theorem le_of_longest? {words : List (Word × Nat)} {best : Word × Nat} (h : longest? words = some best) :
    ∀ other ∈ words, other.2 ≤ best.2 := by
  induction words generalizing best with
  | nil => cases h
  | cons first words ih =>
    rw [longest?] at h
    split at h
    · rename_i hnone
      cases h
      rw [longest?_eq_none_iff.mp hnone]
      simp
    · rename_i best' hbest'
      have hrest := ih hbest'
      split at h
      · rename_i hle
        cases h
        exact List.forall_mem_cons.mpr ⟨Nat.le_refl _, fun other hother => (hrest other hother).trans hle⟩
      · rename_i hnot
        cases h
        exact List.forall_mem_cons.mpr ⟨Nat.le_of_not_le hnot, hrest⟩

/-- What is found is the longest word at the start of the text. -/
theorem exists_longest_of_longest? {length : Nat} (h : longest? (candidates cs) = some (word, length)) :
    ∃ start, Longest cs start word ∧ start.length = length := by
  obtain ⟨start, hstart, hform, rfl⟩ := exists_form_of_mem_candidates (mem_of_longest? h)
  refine ⟨start, ⟨hstart, hform, fun start' word' hstart' hform' => ?_⟩, rfl⟩
  obtain ⟨length, hmem, hle⟩ := hform'.exists_mem_candidates hstart'
  exact hle.trans (le_of_longest? h _ hmem)

/-- Nothing is found exactly if the text starts with no word. -/
theorem longest?_candidates_eq_none_iff :
    longest? (candidates cs) = none ↔ ∀ start word, start <+: cs → ¬ Form start word := by
  rw [longest?_eq_none_iff, List.eq_nil_iff_forall_not_mem]
  constructor
  · intro h start word hstart hform
    obtain ⟨length, hmem, -⟩ := hform.exists_mem_candidates hstart
    exact h _ hmem
  · intro h candidate hmem
    obtain ⟨start, hstart, hform, -⟩ := exists_form_of_mem_candidates hmem
    exact h start _ hstart hform

/-- The longest word at the start of a text is found, and nothing else is. -/
theorem longest?_candidates_eq_some_iff {length : Nat} :
    longest? (candidates cs) = some (word, length) ↔ ∃ start, Longest cs start word ∧ start.length = length := by
  refine ⟨exists_longest_of_longest?, ?_⟩
  rintro ⟨start, hlongest, rfl⟩
  cases hfound : longest? (candidates cs) with
  | none => exact absurd hlongest.form (longest?_candidates_eq_none_iff.mp hfound start word hlongest.isPrefix)
  | some best =>
    obtain ⟨start', hlongest', hlength⟩ := exists_longest_of_longest? hfound
    obtain ⟨rfl, hword⟩ := hlongest.unique hlongest'
    rw [hword, hlength]

/-! ## Whole texts -/

/-- A text is a word exactly if this is the longest word at its start and as long as the text. -/
theorem ofChars?_eq_some_iff_longest? :
    ofChars? cs = some word ↔ longest? (candidates cs) = some (word, cs.length) := by
  unfold ofChars?
  cases longest? (candidates cs) with
  | none => simp
  | some best => simp [Prod.ext_iff, and_comm]

/-- A text that has the form of a word has no longer word at its start. -/
theorem Form.longest (h : Form cs word) : Longest cs cs word where
  isPrefix := List.prefix_refl cs
  form := h
  longest _ _ hstart _ := hstart.length_le

/-- A text is a word exactly if it has the form of the word. -/
theorem ofChars?_eq_some_iff : ofChars? cs = some word ↔ Form cs word := by
  rw [ofChars?_eq_some_iff_longest?, longest?_candidates_eq_some_iff]
  constructor
  · rintro ⟨start, hlongest, hlength⟩
    rw [← hlongest.isPrefix.eq_of_length hlength]
    exact hlongest.form
  · intro h
    exact ⟨cs, h.longest, rfl⟩

/-- Numbers are not written out. -/
theorem not_number_of_mem_spelledOut {entry : String × Word} (h : entry ∈ spelledOut) :
    entry.2 ≠ .float ∧ entry.2 ≠ .integer :=
  not_number_of_mem_fixed entry (mem_fixed_iff.mpr h)

/-- The form of an integer is the pattern of integers. -/
theorem form_integer_iff : Form cs .integer ↔ cs ∈ Pattern.integer.matches' := by
  refine ⟨fun h => ?_, .integer⟩
  cases h with
  | integer h => exact h
  | spelled h => exact absurd rfl (not_number_of_mem_spelledOut h).2

/-- The form of a float is the pattern of floats. -/
theorem form_float_iff : Form cs .float ↔ cs ∈ Pattern.float.matches' := by
  refine ⟨fun h => ?_, .float⟩
  cases h with
  | float h => exact h
  | spelled h => exact absurd rfl (not_number_of_mem_spelledOut h).1

/-- Every word that is written out has one spelling. -/
theorem spelling_unique : ∀ entry ∈ spelledOut, ∀ entry' ∈ spelledOut, entry.2 = entry'.2 → entry.1 = entry'.1 := by
  decide

/-- The form of a word that is written out is its spelling. -/
theorem form_spelled_iff {spelling : String} (h : (spelling, word) ∈ spelledOut) :
    Form cs word ↔ cs = spelling.toList := by
  refine ⟨fun hform => ?_, .spelled h⟩
  cases hform with
  | integer => exact absurd rfl (not_number_of_mem_spelledOut h).2
  | float => exact absurd rfl (not_number_of_mem_spelledOut h).1
  | spelled h' hcs =>
    have hspelling := spelling_unique _ h' _ h rfl
    exact hcs.trans (congrArg String.toList hspelling)

/-- A text is no word exactly if it has none of the forms. -/
theorem ofChars?_eq_none_iff :
    ofChars? cs = none ↔
      cs ∉ Pattern.integer.matches' ∧ cs ∉ Pattern.float.matches' ∧ ∀ entry ∈ spelledOut, cs ≠ entry.1.toList := by
  constructor
  · intro h
    have hnot (word : Word) : ¬ Form cs word := by
      rw [← ofChars?_eq_some_iff, h]
      simp
    exact ⟨fun hcs => hnot _ (.integer hcs), fun hcs => hnot _ (.float hcs),
      fun entry hentry hcs => hnot _ (.spelled hentry hcs)⟩
  · rintro ⟨hinteger, hfloat, hspelled⟩
    rw [Option.eq_none_iff_forall_ne_some]
    intro word hword
    cases ofChars?_eq_some_iff.mp hword with
    | integer h => exact hinteger h
    | float h => exact hfloat h
    | spelled h hcs => exact hspelled _ h hcs

end

end Word

/-! ## Integers of any length -/

namespace Text

/-- The value of a run of digits, each one counted by its place in base ten. -/
def placeValue (digits : List Char) : Nat := Nat.ofDigits 10 (digits.reverse.map fun c => c.toNat - '0'.toNat)

/-- The value of an integer's text in base ten. -/
def decimalValue : List Char → Int
  | '-' :: digits => -placeValue digits
  | digits => placeValue digits

/-- Reading digits one after another counts each one by its place. -/
theorem numeralValue_eq_placeValue (digits : List Char) : numeralValue digits = placeValue digits := by
  induction digits using List.reverseRecOn with
  | nil => rfl
  | append_singleton digits d ih =>
    calc numeralValue (digits ++ [d])
      _ = 10 * numeralValue digits + (d.toNat - '0'.toNat) := by
        rw [numeralValue, Nat.ofDigitChars_append, Nat.ofDigitChars_cons, Nat.ofDigitChars_nil, ← numeralValue]
      _ = (d.toNat - '0'.toNat) + 10 * placeValue digits := by rw [ih, Nat.add_comm]
      _ = placeValue (digits ++ [d]) := by
        rw [placeValue, placeValue, List.reverse_append, List.reverse_singleton, List.singleton_append, List.map_cons,
          Nat.ofDigits_cons]

end Text

section

open Text (decimalValue)

variable {text written : String} {limit line levels : Nat} {s : Stack}

/-- An integer's text is a number with its value in base ten. -/
theorem Literal.numberForm_decimalValue {cs : List Char} (h : Word.IsIntegerText cs) :
    NumberForm (decimalValue cs) cs := by
  obtain ⟨digits, hdigits, rfl | rfl⟩ := h
  · obtain ⟨d, ds, rfl, hall⟩ := Word.exists_cons_of_isNumeral hdigits
    have hminus : d ≠ '-' := Word.ne_minus_of_isDigit (hall d List.mem_cons_self)
    have hvalue : decimalValue (d :: ds) = Text.numeralValue (d :: ds) := by
      rw [Text.numeralValue_eq_placeValue]
      unfold decimalValue
      split
      · rename_i heq
        cases heq
        exact absurd rfl hminus
      · rfl
    rw [hvalue]
    exact .unsigned hdigits
  · rw [decimalValue, ← Text.numeralValue_eq_placeValue]
    exact .negative hdigits

/-- Evaluating an integer narrows its value in base ten, whether the integer is quoted or not. -/
theorem evalToken_decimalValue {below? : Option Level} (h : Word.IsIntegerText text.toList)
    (hwritten : written = text ∨ written = "'" ++ text) :
    evalToken limit below? written =
      StackStep.lift (Literal.narrow (decimalValue text.toList)) >>= fun n => Stack.push (.integer n) := by
  have hinteger : Word.isInteger text.toList = true := Word.isInteger_iff.mpr h
  have hread := Literal.readInteger_of_numberForm (Literal.numberForm_decimalValue h)
  have heval : evalToken limit below? written = evalToken limit below? text := by
    rcases hwritten with rfl | rfl
    · rfl
    · exact evalToken_quoted_of_isInteger hinteger
  rw [heval, evalToken_of_isInteger hinteger, hread]

/-- An integer in range is put on a stack that has room for it. -/
theorem evalTokens_of_fits (h : Word.IsIntegerText text.toList) (hwritten : written = text ∨ written = "'" ++ text)
    (hfits : Integer.Fits (decimalValue text.toList)) (hroom : s.size < s.capacity) :
    ∃ n : Integer, n.toInt = decimalValue text.toList ∧
      evalTokens limit levels [⟨written, line⟩] s = .ok () (s.cons (.integer n)) := by
  rcases Literal.narrow_cases (decimalValue text.toList) with ⟨n, hn, hnarrow⟩ | ⟨-, hlarge⟩
  · refine ⟨n, hn, evalTokens_cons_of_ok ?_ []⟩
    rw [evalToken_decimalValue h hwritten, hnarrow]
    change Stack.push (.integer n) s = _
    rw [Stack.push_apply, if_neg (Nat.not_le.mpr hroom)]
  · exact absurd hfits hlarge

/-- An integer out of range is refused before the stack is touched. -/
theorem evalTokens_of_not_fits (h : Word.IsIntegerText text.toList)
    (hwritten : written = text ∨ written = "'" ++ text) (hlarge : ¬ Integer.Fits (decimalValue text.toList)) :
    evalTokens limit levels [⟨written, line⟩] s = .error ⟨line, .literalTooLarge⟩ s := by
  rcases Literal.narrow_cases (decimalValue text.toList) with ⟨n, hn, -⟩ | ⟨hnarrow, -⟩
  · exact absurd (hn ▸ Integer.fits_toInt n) hlarge
  · apply evalTokens_cons_of_error
    rw [evalToken_decimalValue h hwritten, hnarrow]
    rfl

end

/-- Words are recognised as whole texts only. The longest word at the start of a text is found, if there is one. A text
is an integer or a float exactly if it matches the pattern as a whole, another word exactly if it is the spelling of the
word, and no word otherwise. An integer of any length, quoted or not, puts its value in base ten on a stack with room,
if the value is in range, and fails otherwise and leaves the stack as it was. -/
theorem words_are_whole_texts (text : String) :
    (∀ word length, Word.longest? (Word.candidates text.toList) = some (word, length) ↔
      ∃ start, Word.Longest text.toList start word ∧ start.length = length) ∧
    (Word.longest? (Word.candidates text.toList) = none ↔
      ∀ start word, start <+: text.toList → ¬ Word.Form start word) ∧
    (Word.ofChars? text.toList = some .integer ↔ text.toList ∈ Pattern.integer.matches') ∧
    (Word.ofChars? text.toList = some .float ↔ text.toList ∈ Pattern.float.matches') ∧
    (∀ spelling word, (spelling, word) ∈ Word.spelledOut →
      (Word.ofChars? text.toList = some word ↔ text = spelling)) ∧
    (Word.ofChars? text.toList = none ↔
      text.toList ∉ Pattern.integer.matches' ∧ text.toList ∉ Pattern.float.matches' ∧
        ∀ entry ∈ Word.spelledOut, text ≠ entry.1) ∧
    (text.toList ∈ Pattern.integer.matches' →
      ∀ (limit levels line : Nat) (s : Stack) (written : String), written = text ∨ written = "'" ++ text →
        (-2 ^ 63 ≤ Text.decimalValue text.toList ∧ Text.decimalValue text.toList < 2 ^ 63 → s.size < s.capacity →
          ∃ n : Integer, n.toInt = Text.decimalValue text.toList ∧
            evalTokens limit levels [⟨written, line⟩] s = .ok () (s.cons (.integer n))) ∧
        (¬ (-2 ^ 63 ≤ Text.decimalValue text.toList ∧ Text.decimalValue text.toList < 2 ^ 63) →
          evalTokens limit levels [⟨written, line⟩] s = .error ⟨line, .literalTooLarge⟩ s)) := by
  refine ⟨fun word length => Word.longest?_candidates_eq_some_iff, Word.longest?_candidates_eq_none_iff, ?_, ?_,
    fun spelling word hmem => ?_, ?_, ?_⟩
  · rw [Word.ofChars?_eq_some_iff, Word.form_integer_iff]
  · rw [Word.ofChars?_eq_some_iff, Word.form_float_iff]
  · rw [Word.ofChars?_eq_some_iff, Word.form_spelled_iff hmem, String.toList_inj]
  · simp only [Word.ofChars?_eq_none_iff, ne_eq, String.toList_inj]
  · intro hmatches limit levels line s written hwritten
    have hinteger := Pattern.mem_integer.mp hmatches
    have hrange : Integer.Fits (Text.decimalValue text.toList) ↔
        -2 ^ 63 ≤ Text.decimalValue text.toList ∧ Text.decimalValue text.toList < 2 ^ 63 := by
      rw [Integer.fits_iff]
      omega
    rw [← hrange]
    exact ⟨evalTokens_of_fits hinteger hwritten, evalTokens_of_not_fits hinteger hwritten⟩

/-- The least integer with leading zeros is put on the stack, and the number below it is refused also when it is quoted.
A word is not recognised in front of more letters. -/
theorem words_are_whole_texts_least :
    let s := Stack.ofList 1 []
    (∃ n : Integer, n.toInt = -2 ^ 63 ∧
      evalTokens 0 0 [⟨"-009223372036854775808", 2⟩] s = .ok () (s.cons (.integer n))) ∧
    evalTokens 0 0 [⟨"'-9223372036854775809", 2⟩] s = .error ⟨2, .literalTooLarge⟩ s ∧
    Word.ofChars? "ROLLDS".toList ≠ some (.stack .rollDown) := by
  intro s
  have hleast : "-009223372036854775808".toList ∈ Pattern.integer.matches' :=
    Pattern.mem_integer.mpr ⟨"009223372036854775808".toList, by decide, .inr rfl⟩
  have hbelow : "-9223372036854775809".toList ∈ Pattern.integer.matches' :=
    Pattern.mem_integer.mpr ⟨"9223372036854775809".toList, by decide, .inr rfl⟩
  have hvalue : Text.decimalValue "-009223372036854775808".toList = -2 ^ 63 := by decide
  have hvalue' : Text.decimalValue "-9223372036854775809".toList = -2 ^ 63 - 1 := by decide
  obtain ⟨-, -, -, -, -, -, heval⟩ := words_are_whole_texts "-009223372036854775808"
  obtain ⟨-, -, -, -, -, -, heval'⟩ := words_are_whole_texts "-9223372036854775809"
  obtain ⟨-, -, -, -, hspelled, -⟩ := words_are_whole_texts "ROLLDS"
  refine ⟨?_, ?_, ?_⟩
  · rw [← hvalue]
    exact (heval hleast 0 0 2 s _ (.inl rfl)).1 (by rw [hvalue]; decide) (by decide)
  · exact (heval' hbelow 0 0 2 s _ (.inr rfl)).2 (by rw [hvalue']; decide)
  · rw [ne_eq, hspelled "ROLLD" (.stack .rollDown) (by decide)]
    decide

end StackLang
