import StackLang.Proofs.Texts
import StackLang.Token

/-!
# Cutting a line into tokens

A line that starts with a token is cut behind it, and the rest of the line is cut as if it stood alone. Where
a token ends depends on its first character only: strings end at the next quotation mark, arrays at the
bracket that balances their first one, and bare words at the next blank.
-/

namespace StackLang.Token

open Text (trimStart cutAt byteLength)

/-- A line of blanks holds no tokens. -/
theorem scan_of_trimStart_nil {cs : List Char} (h : trimStart cs = []) : scan cs = .ok [] := by
  rw [scan]
  split
  · rfl
  · rename_i h'
    rw [h] at h'
    cases h'

/-- The first token behind a gap is cut off where it ends, and the line goes on behind it. -/
theorem scan_of_trimStart_cons {cs front tail : List Char} {first : Char}
    (htrim : trimStart cs = first :: (front ++ tail))
    (hlength : tokenLength first (front ++ tail) = .ok (byteLength (first :: front))) :
    scan cs = (scan tail).map fun texts => String.ofList (first :: front) :: texts := by
  have hcut : cutAt (byteLength (first :: front)) (first :: (front ++ tail)) = .ok (first :: front, tail) :=
    Text.cutAt_append (first :: front) tail
  rw [scan]
  split
  · rename_i h
    rw [htrim] at h
    cases h
  · rename_i first' rest h
    rw [htrim] at h
    cases h
    split
    · rename_i h
      rw [hlength] at h
      cases h
    · rename_i length h
      rw [hlength] at h
      cases h
      split
      · rename_i h
        rw [hcut] at h
        cases h
      · rename_i text' tail' h
        rw [hcut] at h
        cases h
        cases scan tail <;> rfl

/-- The first token is cut off where it ends, and the line goes on behind it. -/
theorem scan_cons {first : Char} {front tail : List Char} (hfirst : Text.isBlank first = false)
    (hlength : tokenLength first (front ++ tail) = .ok (byteLength (first :: front))) :
    scan (first :: front ++ tail) =
      (scan tail).map fun texts => String.ofList (first :: front) :: texts :=
  scan_of_trimStart_cons (Text.trimStart_cons hfirst _) hlength

/-- A line is refused if the token behind a gap has no end. -/
theorem scan_of_tokenLength_error {cs rest : List Char} {first : Char} {cause : ScanCause}
    (htrim : trimStart cs = first :: rest) (hlength : tokenLength first rest = .error cause) :
    scan cs = .error cause := by
  rw [scan]
  split
  · rename_i h
    rw [htrim] at h
    cases h
  · rename_i h
    rw [htrim] at h
    cases h
    split
    · rename_i h
      rw [hlength] at h
      cases h
      rfl
    · rename_i h
      rw [hlength] at h
      cases h

/-- A line that is a single token. -/
theorem scan_single {first : Char} {front : List Char} (hfirst : Text.isBlank first = false)
    (hlength : tokenLength first front = .ok (byteLength (first :: front))) :
    scan (first :: front) = .ok [String.ofList (first :: front)] := by
  have hempty : scan [] = .ok [] := scan_of_trimStart_nil rfl
  rw [← List.append_nil front] at hlength
  have hscan := scan_cons hfirst (by rw [hlength, List.append_nil])
  rw [List.append_nil, hempty] at hscan
  exact hscan

/-- A string ends at the next quotation mark. -/
theorem tokenLength_string {cs : List Char} (h : '"' ∉ cs) (tail : List Char) :
    tokenLength '"' (cs ++ '"' :: tail) = .ok (byteLength ('"' :: cs ++ ['"'])) := by
  have hfound := Text.offset?_append (Text.forall_beq_eq_false h) (beq_self_eq_true '"') tail
  have hquote : '"'.utf8Size = 1 := rfl
  simp only [tokenLength, if_true, lengthThrough, hfound, Text.byteLength_append, Text.byteLength_cons,
    Text.byteLength_nil, hquote]
  congr 1
  omega

/-- A lambda ends at the next closing brace. -/
theorem tokenLength_lambda {cs : List Char} (h : '\x7d' ∉ cs) (tail : List Char) :
    tokenLength '\x7b' (cs ++ '\x7d' :: tail) = .ok (byteLength ('\x7b' :: cs ++ ['\x7d'])) := by
  have hbrace : '\x7d' ∉ '\x7b' :: cs := List.not_mem_cons_of_ne_of_not_mem (by decide) h
  have hfound := Text.offset?_append (Text.forall_beq_eq_false hbrace) (beq_self_eq_true '\x7d') tail
  have hclosing : '\x7d'.utf8Size = 1 := rfl
  rw [tokenLength, if_neg (by decide), if_neg (by decide), if_pos rfl, lengthThrough, ← List.cons_append, hfound,
    Text.byteLength_append, Text.byteLength_cons '\x7d', Text.byteLength_nil, hclosing]

/-- A bare word ends at the next blank, or where the line does. -/
theorem tokenLength_bare {first : Char} (hstring : first ≠ '"') (harray : first ≠ '[') (hlambda : first ≠ '\x7b')
    {cs rest : List Char} (hblank : ∀ c ∈ first :: cs, Text.isBlank c = false)
    (hrest : ∀ c ∈ rest.head?, Text.isBlank c = true) :
    tokenLength first (cs ++ rest) = .ok (byteLength (first :: cs)) := by
  rw [tokenLength, if_neg hstring, if_neg harray, if_neg hlambda, ← List.cons_append]
  cases rest with
  | nil => rw [List.append_nil, Text.offset?_eq_none hblank, Option.getD_none]
  | cons c rest => rw [Text.offset?_append hblank (hrest c rfl), Option.getD_some]

/-! ## Arrays -/

/-- An opening bracket goes one level deeper. -/
theorem arrayLength_opening (depth : Nat) (cs : List Char) :
    arrayLength depth ('[' :: cs) = (arrayLength (depth + 1) cs).map (1 + ·) := by
  rw [arrayLength.eq_def]
  exact if_pos rfl

/-- A closing bracket comes back from a deeper level. -/
theorem arrayLength_closing (depth : Nat) (cs : List Char) :
    arrayLength (depth + 2) (']' :: cs) = (arrayLength (depth + 1) cs).map (1 + ·) := by
  rw [arrayLength.eq_def]
  exact (if_neg (by decide)).trans (if_pos rfl)

/-- The closing bracket of the array is its last character. -/
theorem arrayLength_last (cs : List Char) : arrayLength 1 (']' :: cs) = .ok 1 := by
  rw [arrayLength.eq_def]
  exact (if_neg (by decide)).trans (if_pos rfl)

/-- Any other character is passed over. -/
theorem arrayLength_other {c : Char} (hopening : c ≠ '[') (hclosing : c ≠ ']') (depth : Nat) (cs : List Char) :
    arrayLength depth (c :: cs) = (arrayLength depth cs).map (c.utf8Size + ·) := by
  rw [arrayLength.eq_def]
  exact (if_neg hopening).trans (if_neg hclosing)

/-- Counting the bytes of an array goes on behind a part of it. -/
def Passes (depth : Nat) (part : List Char) : Prop :=
  ∀ rest, arrayLength depth (part ++ rest) = (arrayLength depth rest).map (byteLength part + ·)

/-- Nothing is passed over. -/
theorem passes_nil (depth : Nat) : Passes depth [] := by
  intro rest
  cases h : arrayLength depth rest <;> simp [h, Except.map]

/-- Parts that are passed over one by one are passed over together. -/
theorem Passes.append {depth : Nat} {part part' : List Char} (h : Passes depth part) (h' : Passes depth part') :
    Passes depth (part ++ part') := by
  intro rest
  rw [List.append_assoc, h, h']
  cases arrayLength depth rest with
  | error cause => rfl
  | ok length =>
    simp only [Except.map, Text.byteLength_append, Nat.add_assoc]

/-- A part without brackets is passed over. -/
theorem passes_of_forall {depth : Nat} {part : List Char} (h : ∀ c ∈ part, c ≠ '[' ∧ c ≠ ']') :
    Passes depth part := by
  induction part with
  | nil => exact passes_nil depth
  | cons c part ih =>
    obtain ⟨hopening, hclosing⟩ := h c List.mem_cons_self
    have hone : Passes depth [c] := arrayLength_other hopening hclosing depth
    exact hone.append (ih fun c' hc' => h c' (List.mem_cons_of_mem c hc'))

/-- A part in brackets is passed over if its inside is passed over one level deeper. -/
theorem Passes.bracketed {depth : Nat} {part : List Char} (h : Passes (depth + 2) part) :
    Passes (depth + 1) ('[' :: part ++ [']']) := by
  intro rest
  have hassoc : '[' :: part ++ [']'] ++ rest = '[' :: (part ++ (']' :: rest)) := by simp
  rw [hassoc, arrayLength_opening, h, arrayLength_closing]
  cases arrayLength (depth + 1) rest with
  | error cause => rfl
  | ok length =>
    have hopening : '['.utf8Size = 1 := rfl
    have hclosing : ']'.utf8Size = 1 := rfl
    simp only [Except.map, Text.byteLength_append, Text.byteLength_cons, Text.byteLength_nil, hopening, hclosing]
    congr 1
    omega

/-- Parts that are passed over can be joined by a separator that is. -/
theorem passes_intercalate {depth : Nat} {separator : List Char} {parts : List (List Char)}
    (hseparator : Passes depth separator) (hparts : ∀ part ∈ parts, Passes depth part) :
    Passes depth (separator.intercalate parts) := by
  induction parts with
  | nil => exact passes_nil depth
  | cons part parts ih =>
    have hpart := hparts part List.mem_cons_self
    cases parts with
    | nil =>
      rw [List.intercalate_singleton]
      exact hpart
    | cons part' parts =>
      rw [List.intercalate_cons_cons]
      exact (hpart.append hseparator).append (ih fun p hp => hparts p (List.mem_cons_of_mem part hp))

/-- An array ends at the bracket behind a part that is passed over. -/
theorem tokenLength_array {part : List Char} (h : Passes 1 part) (tail : List Char) :
    tokenLength '[' (part ++ ']' :: tail) = .ok (byteLength ('[' :: part ++ [']'])) := by
  have hopening : '['.utf8Size = 1 := rfl
  have hclosing : ']'.utf8Size = 1 := rfl
  rw [tokenLength, if_neg (by decide), if_pos rfl, arrayLength_opening, h, arrayLength_last]
  simp only [Except.map, Text.byteLength_append, Text.byteLength_cons, Text.byteLength_nil, hopening, hclosing,
    Nat.add_zero, Nat.add_assoc]

end StackLang.Token
