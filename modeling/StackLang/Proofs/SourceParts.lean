import StackLang.Proofs.Spacing

/-!
# Sources in two parts

A source that is put together from two parts with a line feed between them has the tokens of the first part and those
of the second one, which stand as many lines later as the first part has lines. If a part cannot be cut into tokens, the
whole cannot either, and a fault in the first part comes before all others.

The last line of the first part is read without its carriage return once a line feed follows it, and an empty last line
becomes a line. Neither makes a difference to its tokens.
-/

namespace StackLang

/-- What is on a line, with some more lines before it. -/
def Located.later {ε : Type} (count : Nat) (e : Located ε) : Located ε := { e with line := e.line + count }

namespace Token

/-- A token with some more lines before it. -/
def later (count : Nat) (token : Token) : Token := { token with line := token.line + count }

/-- The tokens of a text, or its fault, with some more lines before the text. -/
def readLater (count : Nat) :
    Except (Located ScanCause) (List Token) → Except (Located ScanCause) (List Token)
  | .ok tokens => .ok (tokens.map (later count))
  | .error e => .error (e.later count)

/-- Two texts that are read one after the other can be moved to later lines together. -/
theorem readLater_bind (count : Nat) (x y : Except (Located ScanCause) (List Token)) :
    readLater count (do return (← x) ++ (← y)) = do return (← readLater count x) ++ (← readLater count y) := by
  cases x with
  | error e => rfl
  | ok front =>
    cases y with
    | error e => rfl
    | ok back => exact congrArg Except.ok List.map_append

/-- The number of a line is nothing but a mark on its tokens and on its fault. -/
theorem ofLine_add (line count : Nat) (cs : List Char) :
    ofLine (line + count) cs = readLater count (ofLine line cs) := by
  unfold ofLine
  cases scan cs with
  | error cause => rfl
  | ok texts => simp only [readLater, List.map_map, Function.comp_def, later]

/-- Lines that are numbered from a later line on have the same tokens, as many lines later. -/
theorem ofLines_add (line count : Nat) (lines : List (List Char)) :
    ofLines (line + count) lines = readLater count (ofLines line lines) := by
  induction lines generalizing line with
  | nil => rfl
  | cons cs lines ih =>
    have hrest : ofLines (line + count + 1) lines = readLater count (ofLines (line + 1) lines) := by
      rw [Nat.add_right_comm, ih]
    rw [ofLines, ofLine_add, hrest, ofLines, readLater_bind]

/-- A text without line feeds has the tokens of one line, also if it is empty and has no lines. -/
theorem ofLines_of_not_mem {cs : List Char} (h : '\n' ∉ cs) (line : Nat) :
    ofLines line (Text.lines cs) = ofLine line cs := by
  rw [Text.lines_of_not_mem h]
  cases cs with
  | nil =>
    rw [ofLine, scan_of_trimStart_nil rfl]
    rfl
  | cons c cs =>
    change (do return (← ofLine line (c :: cs)) ++ []) = _
    simp only [List.append_nil, bind_pure]

/-- The lines of two texts with a line feed between them are read one text after the other, by induction on the lines of
the first one. -/
theorem ofLines_append_feed (line : Nat) (front back : List Char) :
    ofLines line (Text.lines (front ++ '\n' :: back)) = do
      return (← ofLines line (Text.lines front)) ++
        (← ofLines (line + (front.count '\n' + 1)) (Text.lines back)) := by
  by_cases hfeed : '\n' ∈ front
  · obtain ⟨first, rest, hfront, hfirst⟩ := List.eq_append_cons_of_mem hfeed
    have hlength : rest.length < front.length := by
      rw [hfront, List.length_append, List.length_cons]
      omega
    have hrest := ofLines_append_feed (line + 1) rest back
    have hcount : line + 1 + (rest.count '\n' + 1) = line + (front.count '\n' + 1) := by
      rw [hfront, List.count_append, List.count_cons_self, List.count_eq_zero.mpr hfirst]
      omega
    rw [hcount] at hrest
    rw [hfront, List.append_assoc, List.cons_append, Text.lines_append_feed hfirst, Text.lines_append_feed hfirst,
      ofLines, hrest, ofLines, ← hfront]
    simp only [bind_assoc, pure_bind, List.append_assoc]
  · rw [Text.lines_append_feed hfeed, ofLines, ofLine_dropReturn, ofLines_of_not_mem hfeed,
      List.count_eq_zero.mpr hfeed]
termination_by front.length

/-- A source in two parts with a line feed between them is read part by part. It fails as its first part does, and
otherwise as its second part does, with the fault as many lines later as the first part has lines. If neither part
fails, it has the tokens of the first part and then those of the second one, as many lines later. -/
theorem ofSource_append_feed (front back : String) :
    ofSource (front ++ "\n" ++ back) = do
      let tokens ← ofSource front
      let tokens' ← readLater (front.toList.count '\n' + 1) (ofSource back)
      return tokens ++ tokens' := by
  have htext : (front ++ "\n" ++ back).toList = front.toList ++ '\n' :: back.toList := by simp
  rw [ofSource, htext, ofLines_append_feed, ofLines_add]
  rfl

/-- The lines of the second part count on from those of the first, empty lines included. -/
theorem ofSource_append_feed_shifted :
    ofSource ("7\n8" ++ "\n" ++ "x\n\n+") = .ok [⟨"7", 1⟩, ⟨"8", 2⟩, ⟨"x", 3⟩, ⟨"+", 5⟩] := by
  have hseven : scan ['7'] = .ok ["7"] := scan_single (by decide) rfl
  have height : scan ['8'] = .ok ["8"] := scan_single (by decide) rfl
  have hletter : scan ['x'] = .ok ["x"] := scan_single (by decide) rfl
  have hempty : scan [] = .ok [] := scan_of_trimStart_nil rfl
  have hsum : scan ['+'] = .ok ["+"] := scan_single (by decide) rfl
  have hfront : ofSource "7\n8" = .ok [⟨"7", 1⟩, ⟨"8", 2⟩] := by
    have hlines : Text.lines "7\n8".toList = [['7'], ['8']] := rfl
    simp only [ofSource, hlines, ofLines, ofLine, hseven, height]
    rfl
  have hback : ofSource "x\n\n+" = .ok [⟨"x", 1⟩, ⟨"+", 3⟩] := by
    have hlines : Text.lines "x\n\n+".toList = [['x'], [], ['+']] := rfl
    simp only [ofSource, hlines, ofLines, ofLine, hletter, hempty, hsum]
    rfl
  rw [ofSource_append_feed, hfront, hback]
  rfl

end Token

end StackLang
