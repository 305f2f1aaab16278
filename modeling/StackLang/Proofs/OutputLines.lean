import StackLang.Proofs.ArrayText
import StackLang.Proofs.Jobs
import StackLang.Proofs.Layout
import StackLang.Proofs.Spelling

/-!
# One line for each value

A program prints each value of its result on a line. No line holds a line feed: none of the texts of the program's
tokens does, evaluation makes up no characters, and numbers, truth values and arrays are written without line feeds.
What a job writes can therefore be taken apart at its line feeds into the lines again, with one empty piece behind the
last line feed.
-/

namespace StackLang

/-! ## Floats -/

namespace Binary64

/-- Whether a text holds no other characters than the magnitudes of floats do. -/
def Plain (cs : List Char) : Prop := ∀ c ∈ cs, c.isDigit = true ∨ c ∈ ['.', 'e', '+', '-']

variable {cs cs' : List Char}

/-- Plain texts can be put one behind the other. -/
theorem Plain.append (h : Plain cs) (h' : Plain cs') : Plain (cs ++ cs') :=
  List.forall_mem_append.mpr ⟨h, h'⟩

/-- Part of a plain text is plain. -/
theorem Plain.of_subset (h : Plain cs) (hsubset : cs' ⊆ cs) : Plain cs' := fun c hc => h c (hsubset hc)

/-- Numerals are plain. -/
theorem plain_numeral (n : Nat) : Plain (Text.numeral n) :=
  fun _ hc => .inl (Nat.isDigit_of_mem_toDigits (by decide) (by decide) hc)

/-- Zeros are plain. -/
theorem plain_zeros (count : Nat) : Plain (List.replicate count '0') := by
  intro c hc
  rw [List.eq_of_mem_replicate hc]
  exact .inl rfl

/-- The significant digits of a decimal are plain. -/
theorem plain_significant (d : Decimal) : Plain (significant d).1 := by
  refine (plain_numeral d.digits).of_subset fun c hc => ?_
  exact List.mem_reverse.mp ((List.dropWhile_sublist _).subset (List.mem_reverse.mp hc))

/-- Fraction parts are plain. -/
theorem Plain.fractionPart (h : Plain cs) : Plain (fractionPart cs) := by
  refine List.forall_mem_cons.mpr ⟨.inr (by simp), ?_⟩
  split
  · exact plain_zeros 1
  · exact h

/-- Positional notation is plain. -/
theorem Plain.positional (h : Plain cs) (power : Int) : Plain (positional cs power) := by
  unfold Binary64.positional
  split
  · exact List.forall_mem_cons.mpr ⟨.inl rfl, ((plain_zeros _).append h).fractionPart⟩
  · exact ((h.of_subset (List.take_subset _ cs)).append (plain_zeros _)).append
      (h.of_subset (List.drop_subset _ cs)).fractionPart

/-- Exponents are plain. -/
theorem plain_exponentPart (power : Int) : Plain (exponentPart power) := by
  refine Plain.append (.append ?_ (plain_zeros _)) (plain_numeral _)
  split <;> simp [Plain]

/-- Exponent notation is plain. -/
theorem Plain.scientific (h : Plain cs) (power : Int) : Plain (scientific cs power) :=
  ((h.of_subset (List.take_subset 1 cs)).append (h.of_subset (List.drop_subset 1 cs)).fractionPart).append
    (plain_exponentPart power)

/-- Magnitudes are plain. -/
theorem plain_magnitudeText (mantissa exponent : Nat) : Plain (magnitudeText mantissa exponent) := by
  unfold magnitudeText
  split
  · simp [Plain]
  · have hdigits := plain_significant (shortest mantissa exponent)
    dsimp only
    split
    · exact hdigits.positional _
    · exact hdigits.scientific _

/-- A plain text holds no line feed. -/
theorem Plain.single (h : Plain cs) : '\n' ∉ cs := by
  intro hfeed
  rcases h '\n' hfeed with hdigit | hsign
  · cases hdigit
  · simp at hsign

/-- The text of a float holds no line feed. -/
theorem single_text (x : Binary64) : '\n' ∉ x.text.toList := by
  unfold text
  split
  · simp
  · simp
  · simp
  · rw [String.toList_ofList]
    exact (plain_magnitudeText _ _).single
  · rw [String.toList_ofList, List.mem_cons, not_or]
    exact ⟨by decide, (plain_magnitudeText _ _).single⟩

end Binary64

/-! ## Values -/

namespace Value

/-- The text of a list holds no line feed if those of its items hold none. -/
theorem single_listText {α : Type} {f : α → String} {as : List α} (h : ∀ a ∈ as, '\n' ∉ (f a).toList) :
    '\n' ∉ (listText (as.map f)).toList := by
  have hitems : '\n' ∉ itemChars (as.map f) := by
    intro hfeed
    rcases mem_itemChars hfeed with hcomma | hspace | ⟨a, ha, hitem⟩
    · cases hcomma
    · cases hspace
    · exact h a ha hitem
  rw [toList_listText]
  simpa using hitems

/-- The text of a vector holds no line feed. -/
theorem single_vectorText (entries : IntVector) : '\n' ∉ (vectorText entries).toList :=
  single_listText fun n _ => n.not_mem_text (by decide) rfl

/-- A value is written on one line, if the text that it carries holds no line feed. -/
theorem single_text {v : Value} (h : v.Spelled (· ≠ '\n')) : '\n' ∉ v.text.toList := by
  have hcarried {text : String} (htext : Text.Spelled (· ≠ '\n') text) : '\n' ∉ text.toList :=
    fun hfeed => htext '\n' hfeed rfl
  cases v with
  | integer n => exact n.not_mem_text (by decide) rfl
  | float x => exact (Binary64.ofFloat x).single_text
  | boolean b => cases b <;> simp [text]
  | string s => simpa [text] using hcarried h
  | vector entries => exact single_vectorText entries
  | matrix rows => exact single_listText fun row _ => single_vectorText row
  | symbol token => exact hcarried h
  | lambda literal => exact hcarried h

end Value

/-! ## Lines -/

/-- A line feed behind every line divides a text into the lines and an empty piece. -/
theorem Text.splitOn_unlines {lines : List String} (h : ∀ line ∈ lines, '\n' ∉ line.toList) :
    splitOn '\n' (unlines lines).toList = lines.map String.toList ++ [[]] := by
  induction lines with
  | nil => rfl
  | cons line lines ih =>
    obtain ⟨hline, hlines⟩ := List.forall_mem_cons.mp h
    have hfirst : (unlines (line :: lines)).toList = line.toList ++ '\n' :: (unlines lines).toList := by
      simp [unlines]
    rw [hfirst, splitOn_eq, List.splitOn_append_cons_self_of_not_mem hline, ← splitOn_eq, ih hlines]
    rfl

namespace Program

variable {limits : Limits} {source : String} {values : List Value} {lines : List String}

/-- The values that a program leaves carry no line feeds. -/
theorem spelled_of_result (h : result limits source = .ok values) : ∀ v ∈ values, v.Spelled (· ≠ '\n') := by
  unfold result at h
  cases htokens : Token.ofSource source with
  | error e =>
    rw [htokens] at h
    cases h
  | ok tokens =>
    simp only [htokens] at h
    cases hrun : evalTokens limits.depth limits.depth tokens (Stack.empty limits.stackSize) with
    | error e s =>
      rw [hrun] at h
      cases h
    | ok _ s =>
      rw [hrun] at h
      cases h
      have hsingle : ∀ token ∈ tokens, Text.Spelled (· ≠ '\n') token.text := by
        rintro token htoken c hc rfl
        exact (Token.laid_of_ofSource htokens).single token htoken hc
      have hempty : ∀ v ∈ (Stack.empty limits.stackSize).values, v.Spelled (· ≠ '\n') := by
        intro v hv
        cases hv
      intro v hv
      exact spelled_of_evalTokens hsingle hempty hrun v (List.mem_reverse.mp hv)

/-- The lines that a program prints are the texts of its values. -/
theorem exists_of_output (h : output limits source = .ok lines) :
    ∃ values, result limits source = .ok values ∧ lines = values.map Value.text := by
  unfold output at h
  cases hresult : result limits source with
  | error e =>
    rw [hresult] at h
    cases h
  | ok values =>
    rw [hresult] at h
    cases h
    exact ⟨values, rfl, rfl⟩

/-- No line that a program prints holds a line feed. -/
theorem single_of_output (h : output limits source = .ok lines) : ∀ line ∈ lines, '\n' ∉ line.toList := by
  obtain ⟨values, hresult, rfl⟩ := exists_of_output h
  intro line hline
  obtain ⟨v, hv, rfl⟩ := List.mem_map.mp hline
  exact Value.single_text (spelled_of_result hresult v hv)

/-- A program prints as many lines as it leaves values, and none of them holds a line feed. So the lines, each followed
by a line feed, can be told apart again, and so can those in the file that a job leaves behind. -/
theorem output_one_line_each (h : output limits source = .ok lines) :
    (∃ values, result limits source = .ok values ∧ lines.length = values.length) ∧
      (∀ line ∈ lines, '\n' ∉ line.toList) ∧
      Text.splitOn '\n' (Text.unlines lines).toList = lines.map String.toList ++ [[]] ∧
      ∀ library input folder path tree tree', tree.readText input = .ok source →
        Job.runOn library limits input folder tree = (.ok path, tree') →
          ∃ text, tree'.readText path = .ok text ∧
            Text.splitOn '\n' text.toList = lines.map String.toList ++ [[]] := by
  have hsingle := single_of_output h
  have hsplit := Text.splitOn_unlines hsingle
  refine ⟨?_, hsingle, hsplit, ?_⟩
  · obtain ⟨values, hresult, rfl⟩ := exists_of_output h
    exact ⟨values, hresult, List.length_map _⟩
  · intro library input folder path tree tree' hread hrun
    obtain ⟨source', lines', grown, -, hread', houtput', -, hwritten⟩ := Job.exists_of_runOn_eq_ok hrun
    cases hread.symm.trans hread'
    cases h.symm.trans houtput'
    exact ⟨_, FileTree.readText_of_writeText hwritten, hsplit⟩

/-- A symbol and an integer are on two lines, also in the file of a job. -/
theorem output_one_line_each_written :
    let input := PathName.ofText "input-001.txt"
    let path := PathName.ofText "out/output-001.txt"
    output {} "'b\r\n7" = .ok ["b", "7"] ∧
      ∃ tree' text,
        Job.runOn .standard {} input (PathName.ofText "out") (.insert .empty [input] (.file "'b\r\n7".toUTF8)) =
          (.ok path, tree') ∧
        tree'.readText path = .ok text ∧ Text.splitOn '\n' text.toList = [['b'], ['7'], []] := by
  intro input path
  have houtput : output {} "'b\r\n7" = .ok ["b", "7"] := by
    have hsymbol : Token.scan ['\'', 'b'] = .ok ["'b"] := Token.scan_single (by decide) rfl
    have hinteger : Token.scan ['7'] = .ok ["7"] := Token.scan_single (by decide) rfl
    have hlines : Text.lines "'b\r\n7".toList = [['\'', 'b'], ['7']] := rfl
    have htokens : Token.ofSource "'b\r\n7" = .ok [⟨"'b", 1⟩, ⟨"7", 2⟩] := by
      simp only [Token.ofSource, hlines, Token.ofLines, Token.ofLine, hsymbol, hinteger]
      rfl
    rw [output, result, htokens]
    rfl
  obtain ⟨hread, tree', hrun⟩ := Job.exists_runOn_only_input houtput
  obtain ⟨text, htext, hsplit⟩ := (output_one_line_each houtput).2.2.2 _ _ _ _ _ _ hread hrun
  exact ⟨houtput, tree', text, hrun, htext, hsplit⟩

end Program

end StackLang
