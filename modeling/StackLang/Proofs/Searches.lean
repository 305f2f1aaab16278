import StackLang.Search

/-!
# What a search finds

A library is expected to find a match that starts as far to the left as any, and to find one wherever there is one. It
reports what it has found and what the groups of the pattern stand for in it. Its decimal digits may be of any script,
but among the ASCII characters they are the ten digits.

The standard library does as expected.
-/

namespace StackLang

/-! ## Matches -/

namespace SearchPattern

/-- Whether a text matches a pattern, and what the groups of the pattern then stand for, in their order. -/
inductive Matches (isDigit : Char → Bool) : SearchPattern → List Char → List (List Char) → Prop
  | text (cs : List Char) : Matches isDigit (.text cs) cs []
  | digits {cs : List Char} (h : ∀ c ∈ cs, isDigit c = true) : Matches isDigit (.digits cs.length) cs []
  | group {p : SearchPattern} {found : List Char} {groups : List (List Char)} (h : Matches isDigit p found groups) :
      Matches isDigit (.group p) found (found :: groups)
  | seq {p q : SearchPattern} {found found' : List Char} {groups groups' : List (List Char)}
      (h : Matches isDigit p found groups) (h' : Matches isDigit q found' groups') :
      Matches isDigit (.seq p q) (found ++ found') (groups ++ groups')

section

variable {isDigit : Char → Bool} {p q : SearchPattern} {cs found : List Char} {count : Nat} {groups : List (List Char)}

/-- A text matches itself. -/
theorem matches_text_iff : Matches isDigit (.text cs) found groups ↔ found = cs ∧ groups = [] := by
  constructor
  · rintro ⟨⟩
    exact ⟨rfl, rfl⟩
  · rintro ⟨rfl, rfl⟩
    exact .text found

/-- A number of digits is matched by as many digits. -/
theorem matches_digits_iff :
    Matches isDigit (.digits count) found groups ↔
      found.length = count ∧ (∀ c ∈ found, isDigit c = true) ∧ groups = [] := by
  constructor
  · rintro ⟨⟩
    exact ⟨rfl, ‹_›, rfl⟩
  · rintro ⟨rfl, hdigits, rfl⟩
    exact .digits hdigits

/-- A group stands for all that its pattern matches. -/
theorem matches_group_iff :
    Matches isDigit (.group p) found groups ↔ ∃ inner, p.Matches isDigit found inner ∧ groups = found :: inner := by
  constructor
  · rintro ⟨⟩
    exact ⟨_, ‹_›, rfl⟩
  · rintro ⟨inner, hmatch, rfl⟩
    exact hmatch.group

/-- Two patterns are matched by what they match, one behind the other. -/
theorem matches_seq_iff :
    Matches isDigit (.seq p q) found groups ↔
      ∃ front back inner inner', p.Matches isDigit front inner ∧ q.Matches isDigit back inner' ∧
        found = front ++ back ∧ groups = inner ++ inner' := by
  constructor
  · rintro ⟨⟩
    exact ⟨_, _, _, _, ‹_›, ‹_›, rfl, rfl⟩
  · rintro ⟨front, back, inner, inner', hfront, hback, rfl, rfl⟩
    exact hfront.seq hback

end

/-- Whether a pattern matches right behind the given part of a text. What is captured is the match and behind it what
the groups stand for. -/
def MatchesBehind (isDigit : Char → Bool) (p : SearchPattern) (before : List Char) (captured : List (List Char))
    (source : List Char) : Prop :=
  ∃ found groups after, source = before ++ (found ++ after) ∧ p.Matches isDigit found groups ∧
    captured = found :: groups

end SearchPattern

/-- What is expected of a library that searches texts: it finds a leftmost match, it misses none, and its ASCII digits
are the usual ones. -/
structure SearchLibrary.Leftmost (library : SearchLibrary) : Prop where
  ascii (c : Char) : c.toNat < 128 → library.isDigit c = c.isDigit
  found {p : SearchPattern} {source : List Char} {captured : List (List Char)} :
    library.captures? p source = some captured →
      ∃ before, p.MatchesBehind library.isDigit before captured source ∧
        ∀ before' captured', p.MatchesBehind library.isDigit before' captured' source →
          before.length ≤ before'.length
  missed {p : SearchPattern} {source : List Char} :
    library.captures? p source = none → ∀ before captured, ¬ p.MatchesBehind library.isDigit before captured source

/-! ## The standard library -/

namespace Text

/-- A text is cut behind its first part. -/
theorem cut?_append {α : Type} (front rest : List α) : cut? front.length (front ++ rest) = some (front, rest) := by
  rw [cut?_eq, if_pos (by simp), List.take_left, List.drop_left]

/-- The parts of a text that has been cut make it up, and the first one is as long as was asked for. -/
theorem of_cut? {α : Type} {n : Nat} {as front rest : List α} (h : cut? n as = some (front, rest)) :
    as = front ++ rest ∧ front.length = n := by
  rw [cut?_eq] at h
  split at h
  · rename_i hn
    cases h
    exact ⟨(List.take_append_drop n as).symm, List.length_take_of_le hn⟩
  · cases h

end Text

namespace SearchPattern

variable {isDigit : Char → Bool} {p : SearchPattern} {c c' : Char} {found rest source before : List Char}
  {groups captured : List (List Char)}

/-- A match is found at the start of a text. -/
theorem Matches.matchStart?_append (h : p.Matches isDigit found groups) (rest : List Char) :
    p.matchStart? isDigit (found ++ rest) = some (found, groups, rest) := by
  induction h generalizing rest with
  | text cs => simp [matchStart?, Text.cut?_append]
  | digits hdigits => simpa [matchStart?, Text.cut?_append] using hdigits
  | group _ ih => simp [matchStart?, ih]
  | seq _ _ ih ih' => simp [matchStart?, ih, ih']

/-- What is found at the start of a text is a match. -/
theorem of_matchStart? (h : p.matchStart? isDigit source = some (found, groups, rest)) :
    source = found ++ rest ∧ p.Matches isDigit found groups := by
  induction p generalizing source found groups rest with
  | text cs =>
    rw [matchStart?] at h
    split at h
    · rename_i hcut
      split at h
      · rename_i hfound
        cases h
        exact ⟨(Text.of_cut? hcut).1, hfound ▸ .text found⟩
      · cases h
    · cases h
  | digits count =>
    rw [matchStart?] at h
    split at h
    · rename_i hcut
      split at h
      · rename_i hdigits
        cases h
        obtain ⟨hsource, hlength⟩ := Text.of_cut? hcut
        exact ⟨hsource, hlength ▸ .digits (List.all_eq_true.mp hdigits)⟩
      · cases h
    · cases h
  | group p ih =>
    obtain ⟨⟨found, groups, rest⟩, hstart, hresult⟩ := Option.bind_eq_some_iff.mp h
    cases hresult
    exact (ih hstart).imp_right .group
  | seq p q ih ih' =>
    obtain ⟨⟨found, groups, middle⟩, hstart, hrest⟩ := Option.bind_eq_some_iff.mp h
    obtain ⟨⟨found', groups', rest'⟩, hstart', hresult⟩ := Option.bind_eq_some_iff.mp hrest
    cases hresult
    obtain ⟨rfl, hmatch⟩ := ih hstart
    obtain ⟨rfl, hmatch'⟩ := ih' hstart'
    exact ⟨(List.append_assoc _ _ _).symm, hmatch.seq hmatch'⟩

/-- What is captured at the start of a text is a match there. -/
theorem capturesAtStart?_eq_some_iff :
    p.capturesAtStart? isDigit source = some captured ↔ p.MatchesBehind isDigit [] captured source := by
  rw [capturesAtStart?, Option.map_eq_some_iff]
  constructor
  · rintro ⟨⟨found, groups, rest⟩, hstart, rfl⟩
    obtain ⟨hsource, hmatch⟩ := of_matchStart? hstart
    exact ⟨found, groups, rest, hsource, hmatch, rfl⟩
  · rintro ⟨found, groups, rest, rfl, hmatch, rfl⟩
    exact ⟨(found, groups, rest), hmatch.matchStart?_append rest, rfl⟩

/-- A character more in front makes no difference. -/
theorem MatchesBehind.cons (h : p.MatchesBehind isDigit before captured source) (c : Char) :
    p.MatchesBehind isDigit (c :: before) captured (c :: source) := by
  obtain ⟨found, groups, after, rfl, hmatch, rfl⟩ := h
  exact ⟨found, groups, after, rfl, hmatch, rfl⟩

/-- A character less in front makes no difference. -/
theorem MatchesBehind.tail (h : p.MatchesBehind isDigit (c :: before) captured (c' :: source)) :
    p.MatchesBehind isDigit before captured source := by
  obtain ⟨found, groups, after, hsource, hmatch, rfl⟩ := h
  exact ⟨found, groups, after, (List.cons.inj hsource).2, hmatch, rfl⟩

/-- What is captured first is a match, and none starts further left. -/
theorem leftmost_of_firstCaptures? (h : p.firstCaptures? isDigit source = some captured) :
    ∃ before, p.MatchesBehind isDigit before captured source ∧
      ∀ before' captured', p.MatchesBehind isDigit before' captured' source → before.length ≤ before'.length := by
  induction source with
  | nil => exact ⟨[], capturesAtStart?_eq_some_iff.mp h, fun _ _ _ => Nat.zero_le _⟩
  | cons c source ih =>
    rw [firstCaptures?, Option.or_eq_some_iff] at h
    rcases h with hstart | ⟨hnone, hrest⟩
    · exact ⟨[], capturesAtStart?_eq_some_iff.mp hstart, fun _ _ _ => Nat.zero_le _⟩
    · obtain ⟨before, hmatch, hleft⟩ := ih hrest
      refine ⟨c :: before, hmatch.cons c, fun before' captured' hmatch' => ?_⟩
      cases before' with
      | nil =>
        rw [capturesAtStart?_eq_some_iff.mpr hmatch'] at hnone
        cases hnone
      | cons c' before' => exact Nat.succ_le_succ (hleft before' captured' hmatch'.tail)

/-- Where nothing is captured there is no match. -/
theorem not_matchesBehind_of_firstCaptures? (h : p.firstCaptures? isDigit source = none) (before : List Char)
    (captured : List (List Char)) : ¬ p.MatchesBehind isDigit before captured source := by
  intro hmatch
  induction source generalizing before with
  | nil =>
    have hbefore : before = [] := by
      obtain ⟨found, groups, after, hsource, -⟩ := hmatch
      exact (List.append_eq_nil_iff.mp hsource.symm).1
    rw [firstCaptures?, capturesAtStart?_eq_some_iff.mpr (hbefore ▸ hmatch)] at h
    cases h
  | cons c source ih =>
    rw [firstCaptures?, Option.or_eq_none_iff] at h
    cases before with
    | nil =>
      rw [capturesAtStart?_eq_some_iff.mpr hmatch] at h
      cases h.1
    | cons c' before => exact ih h.2 before hmatch.tail

end SearchPattern

/-- The standard library does what is expected of one. -/
theorem SearchLibrary.leftmost_standard : standard.Leftmost where
  ascii c hc := by
    have hall : ∀ n < 128, Text.inRanges decimalDigitRanges (Char.ofNat n) = (Char.ofNat n).isDigit := by
      decide +kernel
    rw [← Char.ofNat_toNat c]
    exact hall c.toNat hc
  found := SearchPattern.leftmost_of_firstCaptures?
  missed := SearchPattern.not_matchesBehind_of_firstCaptures?

end StackLang
