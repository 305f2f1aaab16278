import StackLang.Job
import StackLang.Proofs.Searches
import StackLang.Proofs.Texts

/-!
# The names of outputs

A job's input is named by the last name of its path: what stands behind the last slash, except for slashes and single
dots at the end, which add nothing. This name has to be the UTF-8 form of a text that holds `input-NNN.txt` somewhere,
with three characters that the library takes for decimal digits. The first place where it does gives the number of the
output. All other inputs are refused, among them names that hold the bytes of `input-NNN.txt` but are no text.

The name of an output holds no `input-NNN.txt`, so no output is taken for an input. All of this is so for every library
that finds leftmost matches.
-/

namespace StackLang

namespace PathName

/-! ## Names and texts -/

/-- A name has the bytes of at most one text. -/
theorem toText?_eq_some_iff {name : PathName} {text : String} : toText? name = some text ↔ name = ofText text := by
  unfold toText? String.fromUTF8?
  constructor
  · intro h
    split at h
    · cases h
      rfl
    · cases h
  · rintro rfl
    exact dif_pos text.isValidUTF8

/-- Different texts have different names. -/
theorem ofText_inj {text text' : String} : ofText text = ofText text' ↔ text = text' := by
  refine ⟨fun h => ?_, congrArg ofText⟩
  have hsame := (toText?_eq_some_iff.mpr rfl).symm.trans (toText?_eq_some_iff.mpr h)
  exact Option.some.inj hsame

/-- The name of a text in two parts. -/
theorem ofText_append (front back : String) : ofText (front ++ back) = ofText front ++ ofText back := by
  simp [ofText]

/-- A byte of a text's name belongs to one of its characters. -/
theorem exists_mem_of_mem_ofText {b : UInt8} {text : String} (h : b ∈ ofText text) :
    ∃ c ∈ text.toList, c.toNat < 128 ∧ b.toNat = c.toNat ∨ 128 ≤ b.toNat ∧ b.toNat < 248 := by
  rw [ofText, Text.toList_toUTF8, List.mem_flatMap] at h
  obtain ⟨c, hc, hbyte⟩ := h
  exact ⟨c, hc, Text.toNat_of_mem_utf8EncodeChar hbyte⟩

/-- An ASCII character whose byte is in a name is in the text of the name. -/
theorem mem_of_mem_ofText {c : Char} {text : String} (hc : c.toNat < 128) (h : UInt8.ofNat c.toNat ∈ ofText text) :
    c ∈ text.toList := by
  have hcode : (UInt8.ofNat c.toNat).toNat = c.toNat := by
    rw [UInt8.toNat_ofNat']
    omega
  obtain ⟨d, hd, ⟨-, hsame⟩ | hbeyond⟩ := exists_mem_of_mem_ofText h
  · rwa [Char.toNat_inj.mp (hcode.symm.trans hsame)]
  · omega

/-- No text has the last of all bytes in its name. -/
theorem not_mem_ofText (text : String) : 0xFF ∉ ofText text := by
  intro h
  have hlast : (0xFF : UInt8).toNat = 255 := rfl
  obtain ⟨c, -, ⟨hascii, hsame⟩ | hbeyond⟩ := exists_mem_of_mem_ofText h <;> omega

/-- A name that is a text is shown as this text. -/
theorem display_ofText (text : String) : display (ofText text) = text := by
  have hcharacters (cs : List Char) : characters (cs.flatMap String.utf8EncodeChar) = cs := by
    induction cs with
    | nil => simp [characters]
    | cons c cs ih =>
      obtain ⟨byte, bytes, hbytes⟩ := List.exists_cons_of_ne_nil (String.utf8EncodeChar_ne_nil (c := c))
      have hlength : c.utf8Size - 1 = bytes.length := by
        rw [← String.length_utf8EncodeChar, hbytes, List.length_cons, Nat.add_sub_cancel]
      have hdecode : ByteArray.utf8DecodeChar?
          ⟨(byte :: (bytes ++ cs.flatMap String.utf8EncodeChar)).toArray⟩ 0 = some c := by
        have hjoined : (String.utf8EncodeChar c).toByteArray ++ (cs.flatMap String.utf8EncodeChar).toByteArray =
            ⟨(byte :: (bytes ++ cs.flatMap String.utf8EncodeChar)).toArray⟩ := by
          ext1
          simp [hbytes]
        rw [← hjoined, ByteArray.utf8DecodeChar?_utf8EncodeChar_append]
      rw [List.flatMap_cons, hbytes, List.cons_append, characters, hdecode]
      simp only [hlength, List.drop_left, ih]
  rw [display, ofText, Text.toList_toUTF8, hcharacters, String.ofList_toList]

/-! ## Steps of paths -/

/-- Whether some bytes add nothing to the path that they follow: they are slashes, and single dots behind them. -/
def Idle (tail : PathName) : Prop :=
  ∃ steps : List PathName, (∀ step ∈ steps, step = [] ∨ step = here) ∧ tail = steps.flatMap fun step => slash :: step

/-- Whether a path ends in a name. The name is a step of its own, which neither stays where it is nor goes to the
parent, and what follows it adds nothing. -/
structure EndsIn (name path : PathName) : Prop where
  split : ∃ front tail, path = front ++ name ++ tail ∧ (front = [] ∨ front.getLast? = some slash) ∧ Idle tail
  no_slash : slash ∉ name
  ne_empty : name ≠ []
  ne_here : name ≠ here
  ne_parent : name ≠ parent

section

variable {path name : PathName} {before after : List PathName}

/-- A path is one of its pieces, with the pieces before it and a slash behind each, and with the pieces after it and a
slash before each. -/
theorem eq_of_pieces (h : pieces path = before ++ name :: after) :
    path = before.flatMap (fun step => step ++ [slash]) ++ name ++ after.flatMap fun step => slash :: step := by
  have hjoined : path = [slash].intercalate (pieces path) := by
    rw [pieces, Text.splitOn_eq, List.intercalate_splitOn]
  rw [hjoined, h, Text.intercalate_append_cons]

/-- A name with slashes and other pieces behind it is cut into these pieces. -/
theorem pieces_name (hname : slash ∉ name) (hafter : ∀ step ∈ after, slash ∉ step) :
    pieces (name ++ after.flatMap fun step => slash :: step) = name :: after := by
  have hjoined := Text.intercalate_append_cons slash [] name after
  simp only [List.nil_append, List.flatMap_nil] at hjoined
  rw [pieces, ← hjoined, Text.splitOn_intercalate]
  · exact List.forall_mem_cons.mpr ⟨hname, hafter⟩
  · exact List.cons_ne_nil _ _

/-- The last name of a path is the last of its pieces that is neither empty nor a single dot, unless it is two dots. -/
theorem fileName?_eq_some_iff_pieces :
    fileName? path = some name ↔
      (∃ before after, pieces path = before ++ name :: after ∧ ∀ step ∈ after, step = [] ∨ step = here) ∧
        name ≠ [] ∧ name ≠ here ∧ name ≠ parent := by
  have hlast :
      fileName? path = some name ↔ ((steps path).filter (· ≠ here)).getLast? = some name ∧ name ≠ parent := by
    unfold fileName?
    cases ((steps path).filter (· ≠ here)).getLast? with
    | none => simp
    | some last => by_cases h : last = parent <;> grind
  rw [hlast, steps, List.filter_filter, ← List.head?_reverse, ← List.filter_reverse, List.head?_filter,
    List.find?_eq_some_iff_append]
  constructor
  · rintro ⟨⟨hname, after, before, hpieces, hafter⟩, hparent⟩
    have hname' : name ≠ here ∧ name ≠ [] := by simpa using hname
    refine ⟨⟨before.reverse, after.reverse, ?_, fun step hstep => ?_⟩, hname'.2, hname'.1, hparent⟩
    · rw [← List.reverse_inj, hpieces]
      simp
    · have hidle := hafter step (List.mem_reverse.mp hstep)
      by_cases hempty : step = []
      · exact .inl hempty
      · exact .inr (by simpa [hempty] using hidle)
  · rintro ⟨⟨before, after, hpieces, hafter⟩, hempty, hhere, hparent⟩
    refine ⟨⟨by simp [hempty, hhere], after.reverse, before.reverse, by simp [hpieces], fun step hstep => ?_⟩, hparent⟩
    rcases hafter step (List.mem_reverse.mp hstep) with rfl | rfl <;> rfl

/-- The last name of a path is the one that it ends in. -/
theorem fileName?_eq_some_iff : fileName? path = some name ↔ EndsIn name path := by
  rw [fileName?_eq_some_iff_pieces]
  constructor
  · rintro ⟨⟨before, after, hpieces, hafter⟩, hempty, hhere, hparent⟩
    have hmem : name ∈ pieces path := by simp [hpieces]
    refine ⟨⟨_, _, eq_of_pieces hpieces, ?_, after, hafter, rfl⟩, Text.not_mem_of_mem_splitOn hmem, hempty, hhere,
      hparent⟩
    rcases List.eq_nil_or_concat before with rfl | ⟨others, last, rfl⟩
    · exact .inl rfl
    · exact .inr (by simp)
  · rintro ⟨⟨front, tail, rfl, hfront, after, hafter, rfl⟩, hslash, hempty, hhere, hparent⟩
    refine ⟨?_, hempty, hhere, hparent⟩
    have hnone : ∀ step ∈ after, slash ∉ step := by
      intro step hstep
      rcases hafter step hstep with rfl | rfl <;> decide
    have hcut := pieces_name hslash hnone
    rcases hfront with rfl | hlast
    · exact ⟨[], after, hcut, hafter⟩
    · obtain ⟨others, rfl⟩ := List.getLast?_eq_some_iff.mp hlast
      refine ⟨pieces others, after, ?_, hafter⟩
      rw [List.append_assoc, List.append_assoc, List.singleton_append, ← hcut]
      simp only [pieces, Text.splitOn_eq, List.splitOn_append_cons_self]

/-- The last name of a path to a name within a folder is the name. -/
theorem fileName?_join (folder : PathName) (hslash : slash ∉ name) (hempty : name ≠ []) (hhere : name ≠ here)
    (hparent : name ≠ parent) : fileName? (join folder name) = some name := by
  have hnothing : Idle [] := ⟨[], nofun, rfl⟩
  refine fileName?_eq_some_iff.mpr ⟨?_, hslash, hempty, hhere, hparent⟩
  unfold join
  split
  · rename_i hfolder
    exact ⟨folder, [], by simp, hfolder, hnothing⟩
  · exact ⟨folder ++ [slash], [], by simp, .inr (by simp), hnothing⟩

end

end PathName

/-! ## Numbers in names -/

namespace Job

/-- Whether `input-NNN.txt` with the given digits stands in a text behind the given part. -/
structure NumberedAt (isDigit : Char → Bool) (before digits cs : List Char) : Prop where
  three : digits.length = 3
  decimal : ∀ d ∈ digits, isDigit d = true
  split : ∃ after, cs = before ++ ("input-".toList ++ digits ++ ".txt".toList ++ after)

/-- Whether the first `input-NNN.txt` in a text has the given digits. -/
def NumberedFirst (isDigit : Char → Bool) (digits cs : List Char) : Prop :=
  ∃ before, NumberedAt isDigit before digits cs ∧
    ∀ before' digits', NumberedAt isDigit before' digits' cs → before.length ≤ before'.length

section

variable {isDigit : Char → Bool} {before before' digits digits' cs : List Char} {captured : List (List Char)}

/-- At one place there is one number. -/
theorem NumberedAt.unique (h : NumberedAt isDigit before digits cs) (h' : NumberedAt isDigit before' digits' cs)
    (hlength : before.length = before'.length) : digits = digits' := by
  obtain ⟨hthree, -, after, hcs⟩ := h
  obtain ⟨hthree', -, after', hcs'⟩ := h'
  have hrest := (List.append_inj (hcs.symm.trans hcs') hlength).2
  simp only [List.append_assoc] at hrest
  have hbehind := List.append_cancel_left hrest
  exact (List.append_inj hbehind (hthree.trans hthree'.symm)).1

/-- A text has one first number. -/
theorem NumberedFirst.unique (h : NumberedFirst isDigit digits cs) (h' : NumberedFirst isDigit digits' cs) :
    digits = digits' := by
  obtain ⟨before, hat, hfirst⟩ := h
  obtain ⟨before', hat', hfirst'⟩ := h'
  exact hat.unique hat' (Nat.le_antisymm (hfirst before' digits' hat') (hfirst' before digits hat))

/-- The pattern of inputs matches where there is a number, and its group stands for the digits. -/
theorem matchesBehind_inputPattern_iff :
    inputPattern.MatchesBehind isDigit before captured cs ↔
      ∃ digits, NumberedAt isDigit before digits cs ∧
        captured = ["input-".toList ++ (digits ++ ".txt".toList), digits] := by
  simp only [SearchPattern.MatchesBehind, inputPattern, SearchPattern.matches_seq_iff, SearchPattern.matches_group_iff,
    SearchPattern.matches_text_iff, SearchPattern.matches_digits_iff]
  constructor
  · rintro ⟨_, _, after, rfl, ⟨_, _, _, _, ⟨rfl, rfl⟩, ⟨digits, _, _, _, ⟨_, ⟨hthree, hdecimal, rfl⟩, rfl⟩,
      ⟨rfl, rfl⟩, rfl, rfl⟩, rfl, rfl⟩, rfl⟩
    exact ⟨digits, ⟨hthree, hdecimal, after, by simp⟩, rfl⟩
  · rintro ⟨digits, ⟨hthree, hdecimal, after, rfl⟩, rfl⟩
    exact ⟨_, _, after, by simp, ⟨_, _, _, _, ⟨rfl, rfl⟩, ⟨digits, _, _, _, ⟨_, ⟨hthree, hdecimal, rfl⟩, rfl⟩,
      ⟨rfl, rfl⟩, rfl, rfl⟩, rfl, rfl⟩, rfl⟩

end

section

variable {library : SearchLibrary} {name : PathName} {digits : List Char}

/-- The number in a name is what the library captures in its text. -/
theorem number?_eq_some_iff_captures :
    number? library name = some digits ↔
      ∃ text captured, name = PathName.ofText text ∧ library.captures? inputPattern text.toList = some captured ∧
        captured[1]? = some digits := by
  simp only [number?, bind, Option.bind_eq_some_iff, PathName.toText?_eq_some_iff]
  grind

/-- The number in the name of a text is what the library captures in the text. -/
theorem number?_ofText (library : SearchLibrary) (text : String) :
    number? library (PathName.ofText text) = (library.captures? inputPattern text.toList).bind (·[1]?) := by
  rw [number?, PathName.toText?_eq_some_iff.mpr rfl]
  rfl

variable (hlibrary : library.Leftmost)
include hlibrary

/-- What a library captures in a text is its first number. -/
theorem numberedFirst_of_captures? {cs : List Char} {captured : List (List Char)}
    (h : library.captures? inputPattern cs = some captured) :
    ∃ digits, captured[1]? = some digits ∧ NumberedFirst library.isDigit digits cs := by
  obtain ⟨before, hmatch, hleft⟩ := hlibrary.found h
  obtain ⟨digits, hat, rfl⟩ := matchesBehind_inputPattern_iff.mp hmatch
  refine ⟨digits, rfl, before, hat, fun before' digits' hat' => ?_⟩
  exact hleft before' _ (matchesBehind_inputPattern_iff.mpr ⟨digits', hat', rfl⟩)

/-- Where a text has a number, a library captures something. -/
theorem exists_captures?_of_numberedAt {before cs : List Char} (h : NumberedAt library.isDigit before digits cs) :
    ∃ captured, library.captures? inputPattern cs = some captured := by
  refine Option.ne_none_iff_exists'.mp fun hnone => ?_
  exact hlibrary.missed hnone _ _ (matchesBehind_inputPattern_iff.mpr ⟨digits, h, rfl⟩)

/-- A library that finds leftmost matches finds the first number of a text. -/
theorem number?_eq_some_iff :
    number? library name = some digits ↔
      ∃ text, name = PathName.ofText text ∧ NumberedFirst library.isDigit digits text.toList := by
  rw [number?_eq_some_iff_captures]
  constructor
  · rintro ⟨text, captured, rfl, hcaptured, hdigits⟩
    obtain ⟨digits', hdigits', hfirst⟩ := numberedFirst_of_captures? hlibrary hcaptured
    cases hdigits.symm.trans hdigits'
    exact ⟨text, rfl, hfirst⟩
  · rintro ⟨text, rfl, hfirst⟩
    have ⟨before, hat, _⟩ := hfirst
    obtain ⟨captured, hcaptured⟩ := exists_captures?_of_numberedAt hlibrary hat
    obtain ⟨digits', hdigits', hfirst'⟩ := numberedFirst_of_captures? hlibrary hcaptured
    rw [hfirst.unique hfirst']
    exact ⟨text, captured, rfl, hcaptured, hdigits'⟩

/-- Where a text has a number, one is found. -/
theorem exists_number?_of_numberedAt {before : List Char} {text : String}
    (h : NumberedAt library.isDigit before digits text.toList) :
    ∃ digits', number? library (PathName.ofText text) = some digits' := by
  obtain ⟨captured, hcaptured⟩ := exists_captures?_of_numberedAt hlibrary h
  obtain ⟨digits', hdigits', -⟩ := numberedFirst_of_captures? hlibrary hcaptured
  exact ⟨digits', number?_eq_some_iff_captures.mpr ⟨text, captured, rfl, hcaptured, hdigits'⟩⟩

/-- A name in which a number is found is a text, and holds digits behind `input-`. -/
theorem of_number? (h : number? library name = some digits) :
    (∀ d ∈ digits, library.isDigit d = true) ∧ ∃ text, name = PathName.ofText text ∧ 'i' ∈ text.toList := by
  obtain ⟨text, rfl, before, ⟨-, hdecimal, after, htext⟩, -⟩ := (number?_eq_some_iff hlibrary).mp h
  exact ⟨hdecimal, text, rfl, by simp [htext]⟩

end

/-! ## Names of outputs -/

section

variable {library : SearchLibrary} (hlibrary : library.Leftmost) {digits : List Char}
  (hdigits : ∀ d ∈ digits, library.isDigit d = true)
include hlibrary hdigits

/-- An ASCII character that is neither a digit nor in the rest of the name is not in the name of an output. -/
theorem not_mem_outputText {c : Char} (hascii : c.toNat < 128) (hdigit : c.isDigit = false)
    (hc : c ∉ "output-.txt".toList) : c ∉ ("output-" ++ String.ofList digits ++ ".txt").toList := by
  intro hmem
  simp only [String.toList_append, String.toList_ofList, List.mem_append] at hmem
  rcases hmem with (hfront | hnumber) | hback
  · exact hc (List.mem_append_left ".txt".toList hfront)
  · rw [← hlibrary.ascii c hascii, hdigits c hnumber] at hdigit
    cases hdigit
  · exact hc (List.mem_append_right "output-".toList hback)

/-- The name of an output is a single step. -/
theorem slash_not_mem_outputName : PathName.slash ∉ outputName digits := by
  intro h
  have hmem := PathName.mem_of_mem_ofText (c := '/') (by decide) h
  exact not_mem_outputText hlibrary hdigits (by decide) rfl (by simp) hmem

/-- The name of an output is not that of an input. -/
theorem outputName_ne_input {text : String} (htext : 'i' ∈ text.toList) : outputName digits ≠ PathName.ofText text := by
  intro h
  rw [outputName, PathName.ofText_inj] at h
  exact not_mem_outputText hlibrary hdigits (by decide) rfl (by simp) (h ▸ htext)

end

/-- The name of an output starts with a letter. -/
theorem exists_outputName_eq (digits : List Char) : ∃ rest, outputName digits = 0x6F :: rest := by
  rw [outputName, PathName.ofText_append, PathName.ofText_append]
  exact ⟨_, rfl⟩

/-- The name of an output has other bytes than dots. -/
theorem outputName_ne (digits : List Char) :
    outputName digits ≠ [] ∧ outputName digits ≠ PathName.here ∧ outputName digits ≠ PathName.parent := by
  obtain ⟨rest, hname⟩ := exists_outputName_eq digits
  rw [hname]
  simp [PathName.here, PathName.parent]

/-- The last name of an output's path is the name of the output. -/
theorem fileName?_outputName {library : SearchLibrary} (hlibrary : library.Leftmost) {digits : List Char}
    (hdigits : ∀ d ∈ digits, library.isDigit d = true) (folder : PathName) :
    PathName.fileName? (PathName.join folder (outputName digits)) = some (outputName digits) := by
  obtain ⟨hempty, hhere, hparent⟩ := outputName_ne digits
  exact PathName.fileName?_join folder (slash_not_mem_outputName hlibrary hdigits) hempty hhere hparent

section

variable {library : SearchLibrary} {input folder path : PathName}

/-- The path of an output is made of the number in the input's last name. -/
theorem outputPath_eq_ok_iff :
    outputPath library input folder = .ok path ↔
      ∃ name digits, PathName.fileName? input = some name ∧ number? library name = some digits ∧
        path = PathName.join folder (outputName digits) := by
  unfold outputPath
  cases hname : PathName.fileName? input with
  | none => simp
  | some name =>
    cases hdigits : number? library name with
    | none => simp [hdigits]
    | some digits => simp [hdigits, eq_comm]

/-- A path that is no output's is refused by name. -/
theorem eq_of_outputPath_eq_error {e : JobError} (h : outputPath library input folder = .error e) :
    e = .invalidInputName input := by
  unfold outputPath at h
  split at h
  · cases h
  · cases h
    rfl

/-- An input is refused exactly if no output can be named after it. -/
theorem outputPath_eq_error_iff :
    outputPath library input folder = .error (.invalidInputName input) ↔
      ¬ ∃ path, outputPath library input folder = .ok path := by
  cases h : outputPath library input folder with
  | ok path => simp
  | error e => simp [eq_of_outputPath_eq_error h]

variable (hlibrary : library.Leftmost)
include hlibrary

/-- An output is named after the first number of a text whose bytes are the input's last name. -/
theorem outputPath_eq_ok_iff_numberedFirst :
    outputPath library input folder = .ok path ↔
      ∃ text digits, PathName.EndsIn (PathName.ofText text) input ∧
        NumberedFirst library.isDigit digits text.toList ∧ path = PathName.join folder (outputName digits) := by
  simp only [outputPath_eq_ok_iff, PathName.fileName?_eq_some_iff, number?_eq_some_iff hlibrary]
  grind

/-- An output can be named exactly if the input's last name is a text that holds a number. -/
theorem exists_outputPath_iff :
    (∃ path, outputPath library input folder = .ok path) ↔
      ∃ text before digits, PathName.EndsIn (PathName.ofText text) input ∧
        NumberedAt library.isDigit before digits text.toList := by
  constructor
  · rintro ⟨path, h⟩
    obtain ⟨text, digits, hname, ⟨before, hat, -⟩, -⟩ := (outputPath_eq_ok_iff_numberedFirst hlibrary).mp h
    exact ⟨text, before, digits, hname, hat⟩
  · rintro ⟨text, before, digits, hname, hat⟩
    obtain ⟨digits', hnumber⟩ := exists_number?_of_numberedAt hlibrary hat
    exact ⟨_, outputPath_eq_ok_iff.mpr ⟨_, digits', PathName.fileName?_eq_some_iff.mpr hname, hnumber, rfl⟩⟩

/-- An output is no input. -/
theorem outputPath_of_outputPath (h : outputPath library input folder = .ok path) (folder' : PathName) :
    outputPath library path folder' = .error (.invalidInputName path) := by
  obtain ⟨name, digits, -, hnumber, rfl⟩ := outputPath_eq_ok_iff.mp h
  obtain ⟨hdigits, -⟩ := of_number? hlibrary hnumber
  rw [outputPath_eq_error_iff]
  rintro ⟨path, hpath⟩
  obtain ⟨name', digits', hname', hnumber', -⟩ := outputPath_eq_ok_iff.mp hpath
  rw [fileName?_outputName hlibrary hdigits folder] at hname'
  cases hname'
  obtain ⟨-, text, htext, hletter⟩ := of_number? hlibrary hnumber'
  exact outputName_ne_input hlibrary hdigits hletter htext

end

/-- The output of an input is named after the first number in the last name of its path, if this name is the UTF-8 form
of a text. There is such a name exactly if the last name is a text that holds a number somewhere, and otherwise the
input is refused. An output is refused as an input. -/
theorem outputPath_derives {library : SearchLibrary} (hlibrary : library.Leftmost) (input folder : PathName) :
    (∀ path, outputPath library input folder = .ok path ↔
      ∃ text digits, PathName.EndsIn (PathName.ofText text) input ∧
        NumberedFirst library.isDigit digits text.toList ∧
        path = PathName.join folder (PathName.ofText ("output-" ++ String.ofList digits ++ ".txt"))) ∧
      ((∃ path, outputPath library input folder = .ok path) ↔
        ∃ text before digits, PathName.EndsIn (PathName.ofText text) input ∧
          NumberedAt library.isDigit before digits text.toList) ∧
      (outputPath library input folder = .error (.invalidInputName input) ↔
        ¬ ∃ text before digits, PathName.EndsIn (PathName.ofText text) input ∧
          NumberedAt library.isDigit before digits text.toList) ∧
      ∀ path, outputPath library input folder = .ok path →
        ∀ folder', outputPath library path folder' = .error (.invalidInputName path) := by
  refine ⟨fun path => outputPath_eq_ok_iff_numberedFirst hlibrary, exists_outputPath_iff hlibrary, ?_,
    fun path h => outputPath_of_outputPath hlibrary h⟩
  rw [outputPath_eq_error_iff, exists_outputPath_iff hlibrary]

/-- A number behind a part of one counts, a later number does not, and the digits may be of any script. -/
theorem outputPath_derives_overlapping :
    let input := PathName.ofText "jobs/input-input-0٣7.txt.input-999.txt/./"
    let output := PathName.ofText "out/output-0٣7.txt"
    outputPath .standard input (PathName.ofText "out") = .ok output ∧
      ∀ folder, outputPath .standard output folder = .error (.invalidInputName output) := by
  intro input output
  have hname : PathName.fileName? input = some (PathName.ofText "input-input-0٣7.txt.input-999.txt") := by rfl
  have hnumber : number? .standard (PathName.ofText "input-input-0٣7.txt.input-999.txt") = some ['0', '٣', '7'] := by
    rw [number?_ofText]
    rfl
  have hderived : outputPath .standard input (PathName.ofText "out") = .ok output :=
    outputPath_eq_ok_iff.mpr ⟨_, _, hname, hnumber, by rfl⟩
  exact ⟨hderived, (outputPath_derives SearchLibrary.leftmost_standard input _).2.2.2 _ hderived⟩

/-- A last name that holds the bytes of `input-001.txt` is refused if it is no text. So is a text with digits that the
library's table does not have yet. -/
theorem outputPath_refuses_unreadable :
    let unreadable : PathName := 0xFF :: PathName.ofText "input-001.txt"
    let recent := PathName.ofText <| String.ofList <|
      "input-".toList ++ [Char.ofNat 0x11DE0, Char.ofNat 0x11DE1, Char.ofNat 0x11DE2] ++ ".txt".toList
    PathName.EndsIn unreadable unreadable ∧ PathName.ofText "input-001.txt" <:+: unreadable ∧
      outputPath .standard unreadable (PathName.ofText "out") = .error (.invalidInputName unreadable) ∧
      outputPath .standard recent (PathName.ofText "out") = .error (.invalidInputName recent) := by
  intro unreadable recent
  have hname : PathName.fileName? unreadable = some unreadable := by rfl
  refine ⟨PathName.fileName?_eq_some_iff.mp hname, (List.suffix_cons _ _).isInfix, ?_, ?_⟩
  · rw [outputPath_eq_error_iff]
    rintro ⟨path, hpath⟩
    obtain ⟨name, digits, hname', hnumber, -⟩ := outputPath_eq_ok_iff.mp hpath
    cases hname.symm.trans hname'
    obtain ⟨text, -, htext, -⟩ := number?_eq_some_iff_captures.mp hnumber
    exact PathName.not_mem_ofText text (htext ▸ List.mem_cons_self)
  · have hname : PathName.fileName? recent = some recent := by rfl
    have hnumber : number? .standard recent = none := by
      rw [number?_ofText]
      rfl
    rw [outputPath, hname, Option.bind_some, hnumber]

end Job

end StackLang
