import StackLang.Failure
import StackLang.Text

/-!
# Tokens

A line is cut into tokens from left to right: strings in quotes, arrays up to their balancing bracket,
lambdas up to the next closing brace, and runs of characters that are not blank. A literal has to close on
its own line. Tokens keep their text as it stands in the source.
-/

namespace StackLang

/-- A piece of the source with the line it stands on. -/
structure Token where
  text : String
  line : Nat
deriving DecidableEq, Repr

namespace Token

open Text (trimStart cutAt offset? byteLength)

/-- The length of an array in bytes, up to the bracket that closes the last open one. Before the text `depth` brackets
are open. -/
def arrayLength (depth : Nat) : List Char → Except ScanCause Nat
  | [] => .error (.unterminated .array)
  | c :: cs =>
    if c = '[' then (arrayLength (depth + 1) cs).map (c.utf8Size + ·)
    else if c = ']' then
      match depth with
      | 0 => .error (.defect .negativeCount)
      | 1 => .ok 1
      | depth + 2 => (arrayLength (depth + 1) cs).map (c.utf8Size + ·)
    else (arrayLength depth cs).map (c.utf8Size + ·)

/-- The length of a literal in bytes, given its text up to its end or the rest of it. The literal ends at the first
occurrence of its closing character, and `more` bytes of it are not counted by the offset of that character. -/
def lengthThrough (closing : Char) (more : Nat) (literal : OpenLiteral) (cs : List Char) : Except ScanCause Nat :=
  match offset? (· == closing) cs with
  | some offset => .ok (offset + more)
  | none => .error (.unterminated literal)

/-- The length in bytes of the token at the start of a text. Its first character decides how it ends. -/
def tokenLength (first : Char) (rest : List Char) : Except ScanCause Nat :=
  if first = '"' then lengthThrough '"' 2 .string rest
  else if first = '[' then arrayLength 0 (first :: rest)
  else if first = '\x7b' then lengthThrough '\x7d' 1 .lambda (first :: rest)
  else .ok ((offset? Text.isBlank (first :: rest)).getD (byteLength (first :: rest)))

/-- An array is not empty. -/
theorem arrayLength_pos {depth length : Nat} {cs : List Char} (h : arrayLength depth cs = .ok length) : 0 < length := by
  have hmore {c : Char} {counted : Except ScanCause Nat} (h : counted.map (c.utf8Size + ·) = .ok length) :
      0 < length := by
    cases counted with
    | error cause => cases h
    | ok counted =>
      cases h
      exact Nat.add_pos_left c.utf8Size_pos counted
  unfold arrayLength at h
  split at h
  · cases h
  · split at h
    · exact hmore h
    · split at h
      · split at h
        · cases h
        · cases h
          exact Nat.one_pos
        · exact hmore h
      · exact hmore h

/-- A token is not empty. -/
theorem tokenLength_pos {first : Char} {rest : List Char} {length : Nat} (hfirst : Text.isBlank first = false)
    (h : tokenLength first rest = .ok length) : 0 < length := by
  have hthrough {closing : Char} {more : Nat} {literal : OpenLiteral} {cs : List Char} (hmore : 0 < more)
      (h : lengthThrough closing more literal cs = .ok length) : 0 < length := by
    unfold lengthThrough at h
    split at h
    · cases h
      exact Nat.add_pos_right _ hmore
    · cases h
  unfold tokenLength at h
  split at h
  · exact hthrough (by decide) h
  · split at h
    · exact arrayLength_pos h
    · split at h
      · exact hthrough (by decide) h
      · cases h
        rw [offset?, hfirst]
        have hpos := first.utf8Size_pos
        cases offset? Text.isBlank rest <;> simp <;> omega

/-- A token starts with the first character that is not blank, and what follows it is what its line goes on with. -/
theorem exists_cons_of_cutAt {cs rest text tail : List Char} {first : Char} {length : Nat}
    (htrim : trimStart cs = first :: rest) (hlength : tokenLength first rest = .ok length)
    (hcut : cutAt length (first :: rest) = .ok (text, tail)) :
    ∃ front, text = first :: front ∧ rest = front ++ tail := by
  obtain ⟨hparts, rfl⟩ := Text.of_cutAt hcut
  cases text with
  | nil => exact absurd (tokenLength_pos (Text.isBlank_of_trimStart htrim) hlength) (Nat.lt_irrefl 0)
  | cons c front =>
    obtain ⟨rfl, rfl⟩ := List.cons.inj hparts
    exact ⟨front, rfl, rfl⟩

/-- What follows a token is shorter than the text that the token was cut from. -/
theorem length_after_token {cs rest text tail : List Char} {first : Char} {length : Nat}
    (htrim : trimStart cs = first :: rest) (hlength : tokenLength first rest = .ok length)
    (hcut : cutAt length (first :: rest) = .ok (text, tail)) : tail.length < cs.length := by
  obtain ⟨front, -, rfl⟩ := exists_cons_of_cutAt htrim hlength hcut
  have hle := Text.length_trimStart_le cs
  rw [htrim, List.length_cons, List.length_append] at hle
  omega

/-- The texts of the tokens of a line. -/
def scan (cs : List Char) : Except ScanCause (List String) :=
  match htrim : trimStart cs with
  | [] => .ok []
  | first :: rest =>
    match hlength : tokenLength first rest with
    | .error cause => .error cause
    | .ok length =>
      match hcut : cutAt length (first :: rest) with
      | .error fault => .error (.defect (.badOffset fault))
      | .ok (text, tail) =>
        have : tail.length < cs.length := length_after_token htrim hlength hcut
        match scan tail with
        | .error cause => .error cause
        | .ok texts => .ok (String.ofList text :: texts)
termination_by cs.length

/-- The tokens of a line with a given number. -/
def ofLine (line : Nat) (cs : List Char) : Except (Located ScanCause) (List Token) :=
  match scan cs with
  | .error cause => .error { line, cause }
  | .ok texts => .ok (texts.map fun text => { text, line })

/-- The tokens of lines that are numbered from `line` on. The first line that fails decides. -/
def ofLines (line : Nat) : List (List Char) → Except (Located ScanCause) (List Token)
  | [] => .ok []
  | cs :: rest => do
    let tokens ← ofLine line cs
    return tokens ++ (← ofLines (line + 1) rest)

/-- The tokens of a source text, whose lines are numbered from one on. -/
def ofSource (source : String) : Except (Located ScanCause) (List Token) :=
  ofLines 1 (Text.lines source.toList)

end Token

end StackLang
