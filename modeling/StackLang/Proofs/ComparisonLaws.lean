import Mathlib.Data.String.Basic
import StackLang.Proofs.NumberOrder

/-!
# One order behind all comparisons

The seven comparison operators are about one total preorder on numbers and one total order on strings: exactly one of
less, equal and greater holds of two numbers or two strings, the other operators follow from these three, exchanging the
operands reverses all of them, and chains can be shortened, also where integers and floats alternate. Equality is an
equivalence on all values, and no other pair of values can be ordered.

Strings are ordered by their code points. This is the same as the order of the bytes that encode them.
-/

namespace StackLang

/-! ## Code points and bytes -/

namespace Text

/-- Whether the first difference of two lists of bytes has a smaller byte in the first one. -/
def BytesBefore : List UInt8 → List UInt8 → Prop
  | x :: xs, y :: ys => x < y ∨ x = y ∧ BytesBefore xs ys
  | _, _ => False

/-- Such lists are in order whatever follows them. -/
theorem BytesBefore.append_lt {xs ys : List UInt8} (h : BytesBefore xs ys) (us vs : List UInt8) :
    xs ++ us < ys ++ vs := by
  induction xs generalizing ys with
  | nil => exact absurd h (by simp [BytesBefore])
  | cons x xs ih =>
    cases ys with
    | nil => exact absurd h (by simp [BytesBefore])
    | cons y ys =>
      rw [List.cons_append, List.cons_append, List.cons_lt_cons_iff]
      exact h.imp_right fun hrest => ⟨hrest.1, ih hrest.2⟩

/-- Bytes are ordered as their numbers. -/
theorem bytesBefore_cons {m n : ℕ} (hm : m < 256) (hn : n < 256) (xs ys : List UInt8) :
    BytesBefore (UInt8.ofNat m :: xs) (UInt8.ofNat n :: ys) ↔ m < n ∨ m = n ∧ BytesBefore xs ys := by
  rw [BytesBefore, UInt8.lt_iff_toNat_lt, ← UInt8.toNat_inj, UInt8.toNat_ofNat_of_lt' hm, UInt8.toNat_ofNat_of_lt' hn]

/-- A smaller leading byte decides. -/
theorem bytesBefore_of_lt {m n : ℕ} (h : m < n) (hn : n < 256) (xs ys : List UInt8) :
    BytesBefore (UInt8.ofNat m :: xs) (UInt8.ofNat n :: ys) :=
  (bytesBefore_cons (h.trans hn) hn xs ys).mpr (.inl h)

/-- A byte for a digit in front of bytes for the remainder keeps the order of two numbers. -/
theorem bytesBefore_digit {v w place base marker : ℕ} {xs ys : List UInt8} (hplace : 0 < place) (hbase : 0 < base)
    (hmarker : base + marker ≤ 256) (hrest : v % place < w % place → BytesBefore xs ys)
    (h : v % (place * base) < w % (place * base)) :
    BytesBefore (UInt8.ofNat (v / place % base + marker) :: xs) (UInt8.ofNat (w / place % base + marker) :: ys) := by
  have hv := Nat.mod_lt (v / place) hbase
  have hw := Nat.mod_lt (w / place) hbase
  rw [Nat.mod_mul, Nat.mod_mul] at h
  rw [bytesBefore_cons (by omega) (by omega)]
  rcases Nat.lt_trichotomy (v / place % base) (w / place % base) with hlt | heq | hgt
  · exact .inl (by omega)
  · rw [heq] at h
    exact .inr ⟨by omega, hrest (by omega)⟩
  · -- A larger digit outweighs any remainder.
    have hremainder := Nat.mod_lt w hplace
    have hdigit := Nat.mul_le_mul_left place hgt
    rw [Nat.mul_succ] at hdigit
    omega

/-- The encodings of two characters differ first in a byte that is smaller for the smaller one. -/
theorem bytesBefore_utf8EncodeChar {c d : Char} (h : c < d) :
    BytesBefore (String.utf8EncodeChar c) (String.utf8EncodeChar d) := by
  have hlt : c.val.toNat < d.val.toNat := UInt32.lt_iff_toNat_lt.mp (Char.lt_def.mp h)
  have hrange : d.val.toNat < 1114112 := by
    rcases d.valid with h | h
    · omega
    · exact h.2
  have hlast (h : c.val.toNat % 64 < d.val.toNat % 64) :
      BytesBefore [UInt8.ofNat (c.val.toNat % 64 + 128)] [UInt8.ofNat (d.val.toNat % 64 + 128)] :=
    bytesBefore_of_lt (by omega) (by omega) [] []
  have hmiddle (h : c.val.toNat % 4096 < d.val.toNat % 4096) :
      BytesBefore [UInt8.ofNat (c.val.toNat / 64 % 64 + 128), UInt8.ofNat (c.val.toNat % 64 + 128)]
        [UInt8.ofNat (d.val.toNat / 64 % 64 + 128), UInt8.ofNat (d.val.toNat % 64 + 128)] :=
    bytesBefore_digit (by decide) (by decide) (by decide) hlast h
  simp only [String.utf8EncodeChar]
  split_ifs
  -- The leading byte decides, unless both characters take the same number of bytes and more than one.
  all_goals try exact bytesBefore_of_lt (by omega) (by omega) _ _
  · exact bytesBefore_digit (by decide) (by decide) (by decide) hlast (by omega)
  · exact bytesBefore_digit (by decide) (by decide) (by decide) hmiddle (by omega)
  · refine bytesBefore_digit (by decide) (by decide) (by decide) (fun h => ?_) (by omega)
    exact bytesBefore_digit (by decide) (by decide) (by decide) hmiddle h

/-- Texts in order have encodings in order. -/
theorem flatMap_utf8EncodeChar_lt {cs ds : List Char} (h : cs < ds) :
    cs.flatMap String.utf8EncodeChar < ds.flatMap String.utf8EncodeChar := by
  induction cs generalizing ds with
  | nil =>
    cases ds with
    | nil => exact absurd h (by simp)
    | cons d ds =>
      obtain ⟨x, xs, hx⟩ := List.exists_cons_of_ne_nil (String.utf8EncodeChar_ne_nil (c := d))
      rw [List.flatMap_cons, hx]
      exact List.nil_lt_cons x _
  | cons c cs ih =>
    cases ds with
    | nil => exact absurd h (by simp)
    | cons d ds =>
      rw [List.flatMap_cons, List.flatMap_cons]
      rcases List.cons_lt_cons_iff.mp h with hlt | ⟨rfl, hrest⟩
      · exact (bytesBefore_utf8EncodeChar hlt).append_lt _ _
      · exact List.append_left_lt (ih hrest)

/-- The bytes of a text are ordered as its code points. -/
theorem toUTF8_lt_iff (s t : String) : s.toUTF8.data.toList < t.toUTF8.data.toList ↔ s.toList < t.toList := by
  rw [toList_toUTF8, toList_toUTF8]
  refine ⟨fun h => ?_, flatMap_utf8EncodeChar_lt⟩
  rcases lt_trichotomy s.toList t.toList with hlt | heq | hgt
  · exact hlt
  · rw [heq] at h
    exact absurd h (List.lt_irrefl _)
  · exact absurd h (List.lt_asymm (flatMap_utf8EncodeChar_lt hgt))

end Text

/-! ## Equality -/

namespace Value

/-- What equality looks at: the place of a number, and any other value as it is. -/
def identity (v : Value) : NumberLine ⊕ Value :=
  match v.place? with
  | some p => .inl p
  | none => .inr v

/-- The contents of numbers are not looked at. -/
theorem sameContents_of_place {a b : Value} {p : NumberLine} (ha : a.place? = some p) : a.sameContents b = false := by
  cases a with
  | integer n => rfl
  | float x => rfl
  | _ => cases ha

/-- Values that are not numbers have the same contents exactly if they are the same. -/
theorem sameContents_iff {a b : Value} (ha : a.place? = none) : a.sameContents b = true ↔ a = b := by
  cases a with
  | integer n => cases ha
  | float x => cases ha
  | _ => cases b <;> simp [sameContents]

end Value

namespace Operation

/-- Equality is that of places for numbers, and that of the values themselves for all others. -/
theorem equal_iff (a b : Value) : equal a b = true ↔ a.identity = b.identity := by
  rw [equal, Value.identity, Value.identity]
  cases ha : a.place? with
  | none =>
    rw [numberOrder?_of_place_none (.inl ha)]
    refine (Value.sameContents_iff ha).trans ?_
    cases hb : b.place? with
    | none => exact Sum.inr_injective.eq_iff.symm
    | some q =>
      refine iff_of_false ?_ Sum.inr_ne_inl
      rintro rfl
      cases ha.symm.trans hb
  | some p =>
    cases hb : b.place? with
    | none =>
      rw [numberOrder?_of_place_none (.inr hb)]
      refine iff_of_false ?_ Sum.inl_ne_inr
      simp [Value.sameContents_of_place ha]
    | some q =>
      rw [numberOrder?_of_place ha hb]
      exact Ordering.isEq_iff_eq_eq.trans ((cmp_eq_eq_iff p q).trans Sum.inl_injective.eq_iff.symm)

/-! ## Order -/

/-- Whether two values have an order: two numbers have that of their places, and two strings that of their texts. -/
inductive Ordered : Value → Value → Ordering → Prop where
  | numbers {a b : Value} {p q : NumberLine} {o : Ordering} (ha : a.place? = some p) (hb : b.place? = some q)
      (h : cmp p q = o) : Ordered a b o
  | strings {s t : String} {o : Ordering} (h : compare s t = o) : Ordered (.string s) (.string t) o

/-- Being at most something, read off the order of two places. -/
theorem isLE_cmp (p q : NumberLine) : (cmp p q).isLE = true ↔ p ≤ q := by
  rw [Ordering.isLE_iff_ne_gt, cmp_eq_gt_iff, not_lt]

namespace Ordered

variable {a b c : Value} {o : Ordering}

/-- This is the order that the operators use. -/
theorem order?_eq (h : Ordered a b o) : order? a b = some o := by
  cases h with
  | numbers ha hb h =>
    rw [← h, ← numberOrder?_of_place ha hb]
    cases a with
    | string s => cases ha
    | _ => rfl
  | strings h => exact congrArg some h

/-- Values are equal exactly if neither of them comes first. -/
theorem equal_eq (h : Ordered a b o) : equal a b = decide (o = .eq) := by
  rw [Bool.eq_iff_iff, decide_eq_true_iff, equal_iff]
  cases h with
  | numbers ha hb h =>
    rw [← h, cmp_eq_eq_iff, Value.identity, Value.identity, ha, hb]
    exact Sum.inl_injective.eq_iff
  | strings h =>
    rw [← h, Std.LawfulEqOrd.compare_eq_iff_eq]
    simp [Value.identity, Value.place?]

/-- Exchanging the values reverses their order. -/
theorem swap (h : Ordered a b o) : Ordered b a o.swap := by
  cases h with
  | numbers ha hb h => exact .numbers hb ha (by rw [← h, cmp_swap])
  | strings h => exact .strings (by rw [← h, ← Std.OrientedOrd.eq_swap])

/-- The ends of a chain have an order, which is less if both steps are, and at most if both steps are. -/
theorem trans {o' : Ordering} (hab : Ordered a b o) (hbc : Ordered b c o') :
    ∃ o'', Ordered a c o'' ∧ (o = .lt → o' = .lt → o'' = .lt) ∧
      (o.isLE = true → o'.isLE = true → o''.isLE = true) := by
  cases hab with
  | numbers ha hb h =>
    cases hbc with
    | numbers hb' hc h' =>
      cases hb.symm.trans hb'
      subst h h'
      refine ⟨_, .numbers ha hc rfl, fun hlt hlt' => ?_, fun hle hle' => ?_⟩
      · rw [cmp_eq_lt_iff] at hlt hlt' ⊢
        exact hlt.trans hlt'
      · rw [isLE_cmp] at hle hle' ⊢
        exact hle.trans hle'
    | strings h' => cases hb
  | strings h =>
    cases hbc with
    | numbers hb' => cases hb'
    | strings h' =>
      subst h h'
      exact ⟨_, .strings rfl, Std.TransCmp.lt_trans, Std.TransCmp.isLE_trans⟩

end Ordered

end Operation

namespace Value

/-- Whether two values are two numbers or two strings. -/
def Comparable (a b : Value) : Prop :=
  (a.isNumber = true ∧ b.isNumber = true) ∨ ∃ s t, a = .string s ∧ b = .string t

/-- Numbers have places. -/
theorem exists_place {a : Value} (h : a.isNumber = true) : ∃ p, a.place? = some p := by
  cases a with
  | integer n => exact ⟨_, rfl⟩
  | float x => exact ⟨_, rfl⟩
  | _ => cases h

/-- Other values have none. -/
theorem place?_eq_none {a : Value} (h : ¬ a.isNumber = true) : a.place? = none := by
  cases a with
  | integer n => exact absurd rfl h
  | float x => exact absurd rfl h
  | _ => rfl

end Value

namespace Operation

variable {a b c : Value} {o : Ordering}

/-- Two numbers, and two strings, have an order. -/
theorem Ordered.exists_of_comparable (h : a.Comparable b) : ∃ o, Ordered a b o := by
  rcases h with ⟨ha, hb⟩ | ⟨s, t, rfl, rfl⟩
  · obtain ⟨p, hp⟩ := Value.exists_place ha
    obtain ⟨q, hq⟩ := Value.exists_place hb
    exact ⟨_, .numbers hp hq rfl⟩
  · exact ⟨_, .strings rfl⟩

/-- No other values have an order. -/
theorem order?_of_not_comparable (h : ¬ a.Comparable b) : order? a b = none := by
  have hnumbers : numberOrder? a b = none := by
    refine numberOrder?_of_place_none ?_
    by_cases ha : a.isNumber = true
    · exact .inr (Value.place?_eq_none fun hb => h (.inl ⟨ha, hb⟩))
    · exact .inl (Value.place?_eq_none ha)
  unfold order?
  split
  · exact absurd (.inr ⟨_, _, rfl, rfl⟩) h
  · exact hnumbers

/-- The order that the operators use is that of the values. -/
theorem ordered_of_order? (h : order? a b = some o) : Ordered a b o := by
  by_cases hcomparable : a.Comparable b
  · obtain ⟨o', ho'⟩ := Ordered.exists_of_comparable hcomparable
    cases ho'.order?_eq.symm.trans h
    exact ho'
  · cases (order?_of_not_comparable hcomparable).symm.trans h

/-! ## The operators -/

/-- What the seven operators say of two values in an order. -/
structure Decides (apply : BinaryOp → Value → Value → Except Cause Value) (a b : Value) (o : Ordering) : Prop where
  less : apply .less a b = .ok (.boolean (decide (o = .lt)))
  equal : apply .equal a b = .ok (.boolean (decide (o = .eq)))
  greater : apply .greater a b = .ok (.boolean (decide (o = .gt)))
  lessEqual : apply .lessEqual a b = .ok (.boolean (decide (o = .lt ∨ o = .eq)))
  greaterEqual : apply .greaterEqual a b = .ok (.boolean (decide (o = .gt ∨ o = .eq)))
  notEqual : apply .notEqual a b = .ok (.boolean (decide (o ≠ .eq)))
  compare : apply .compare a b = .ok (.integer (if o = .lt then -1 else if o = .eq then 0 else 1))

/-- The operators say what the order of the values is. -/
theorem Ordered.decides (h : Ordered a b o) : Decides comparison a b o := by
  have horder := h.order?_eq
  have hequal := h.equal_eq
  -- Two operators test for equality, and the other five look at the order alone.
  cases o <;> constructor <;> simp only [comparison, horder, hequal] <;> rfl

/-- The operators that need an order refuse all other values. -/
theorem comparison_of_not_comparable {op : BinaryOp}
    (hop : op ∈ [.less, .greater, .lessEqual, .greaterEqual, .compare]) (h : ¬ a.Comparable b) :
    comparison op a b = .error (.typeMismatch (.comparison a.kind b.kind)) := by
  simp only [List.mem_cons, List.not_mem_nil, or_false] at hop
  rcases hop with rfl | rfl | rfl | rfl | rfl <;> simp only [comparison, order?_of_not_comparable h]

/-- So a result of one of them comes from an order. -/
theorem exists_ordered_of_ok {op : BinaryOp} {v : Value}
    (hop : op ∈ [.less, .greater, .lessEqual, .greaterEqual, .compare]) (h : comparison op a b = .ok v) :
    ∃ o, Ordered a b o := by
  by_contra hnone
  have hcomparable : ¬ a.Comparable b := fun hcomparable => hnone (Ordered.exists_of_comparable hcomparable)
  cases (comparison_of_not_comparable hop hcomparable).symm.trans h

/-- One value is less than another exactly if it comes first. -/
theorem comparison_less_iff : comparison .less a b = .ok (.boolean true) ↔ Ordered a b .lt := by
  refine ⟨fun h => ?_, fun h => h.decides.less⟩
  obtain ⟨o, ho⟩ := exists_ordered_of_ok (by decide) h
  have hlt : decide (o = .lt) = true := by simpa using ho.decides.less.symm.trans h
  exact of_decide_eq_true hlt ▸ ho

/-- One value is at most another exactly if it does not come last. -/
theorem comparison_lessEqual_iff :
    comparison .lessEqual a b = .ok (.boolean true) ↔ ∃ o, Ordered a b o ∧ o.isLE = true := by
  constructor
  · intro h
    obtain ⟨o, ho⟩ := exists_ordered_of_ok (by decide) h
    have hle : o = .lt ∨ o = .eq := by simpa using ho.decides.lessEqual.symm.trans h
    exact ⟨o, ho, Ordering.isLE_iff_eq_lt_or_eq_eq.mpr hle⟩
  · rintro ⟨o, ho, hle⟩
    rw [ho.decides.lessEqual, decide_eq_true (Ordering.isLE_iff_eq_lt_or_eq_eq.mp hle)]

/-- Strings are in the order of their code points. -/
theorem comparison_less_string (s t : String) :
    comparison .less (.string s) (.string t) = .ok (.boolean (decide (s.toList < t.toList))) := by
  have hlt : compare s t = .lt ↔ s.toList < t.toList := compareOfLessAndEq_eq_lt.trans String.lt_iff_toList_lt
  rw [(Ordered.strings rfl).decides.less, decide_eq_decide.mpr hlt]

/-- What the comparison operators have to do with all values: equality is an equivalence, two numbers or two strings are
in exactly one of three orders, which is reversed if they are exchanged and by which chains can be shortened, strings
are in the order of their code points and of their bytes, and nothing else can be ordered. -/
structure OneOrder (equal : Value → Value → Bool) (apply : BinaryOp → Value → Value → Except Cause Value) : Prop where
  equivalence : Equivalence fun a b => equal a b = true
  identity (a b : Value) : equal a b = true ↔ a.identity = b.identity
  equality (a b : Value) :
    apply .equal a b = .ok (.boolean (equal a b)) ∧ apply .notEqual a b = .ok (.boolean (!equal a b))
  trichotomy {a b : Value} (h : a.Comparable b) : ∃ o, Decides apply a b o ∧ Decides apply b a o.swap
  less_trans {a b c : Value} (hab : apply .less a b = .ok (.boolean true))
    (hbc : apply .less b c = .ok (.boolean true)) : apply .less a c = .ok (.boolean true)
  lessEqual_trans {a b c : Value} (hab : apply .lessEqual a b = .ok (.boolean true))
    (hbc : apply .lessEqual b c = .ok (.boolean true)) : apply .lessEqual a c = .ok (.boolean true)
  codePoints (s t : String) : apply .less (.string s) (.string t) = .ok (.boolean (decide (s.toList < t.toList)))
  bytes (s t : String) :
    apply .less (.string s) (.string t) = .ok (.boolean (decide (s.toUTF8.data.toList < t.toUTF8.data.toList)))
  refused {op : BinaryOp} {a b : Value} (hop : op ∈ [.less, .greater, .lessEqual, .greaterEqual, .compare])
    (h : ¬ a.Comparable b) : apply op a b = .error (.typeMismatch (.comparison a.kind b.kind))

/-- The comparison operators describe one order, of all numbers and of all strings. -/
theorem comparison_one_order : OneOrder equal comparison where
  equivalence := by
    simp only [equal_iff]
    exact ⟨fun _ => rfl, Eq.symm, Eq.trans⟩
  identity := equal_iff
  equality _ _ := ⟨rfl, rfl⟩
  trichotomy h := by
    obtain ⟨o, ho⟩ := Ordered.exists_of_comparable h
    exact ⟨o, ho.decides, ho.swap.decides⟩
  less_trans hab hbc := by
    rw [comparison_less_iff] at hab hbc ⊢
    obtain ⟨o, ho, hlt, -⟩ := hab.trans hbc
    exact hlt rfl rfl ▸ ho
  lessEqual_trans hab hbc := by
    rw [comparison_lessEqual_iff] at hab hbc ⊢
    obtain ⟨_, hab, hle⟩ := hab
    obtain ⟨_, hbc, hle'⟩ := hbc
    obtain ⟨o, ho, -, htrans⟩ := hab.trans hbc
    exact ⟨o, ho, htrans hle hle'⟩
  codePoints := comparison_less_string
  bytes s t := by
    rw [comparison_less_string, decide_eq_decide.mpr (Text.toUTF8_lt_iff s t)]
  refused := comparison_of_not_comparable

/-- A float between two integers, of which the larger one is not itself a float, and a string that has no order with
them. -/
theorem comparison_one_order_beyond_floats :
    let x := Float.ofBits 0x4340000000000000
    comparison .less (.integer 9007199254740991) (.float x) = .ok (.boolean true) ∧
      comparison .less (.float x) (.integer 9007199254740993) = .ok (.boolean true) ∧
      comparison .less (.integer 9007199254740991) (.integer 9007199254740993) = .ok (.boolean true) ∧
      comparison .compare (.string "a") (.float x) = .error (.typeMismatch (.comparison .string .float)) := by
  intro x
  have hbelow : order? (.integer 9007199254740991) (.float x) = some .lt := by decide +kernel
  have habove : order? (.float x) (.integer 9007199254740993) = some .lt := by decide +kernel
  have hless := comparison_less_iff.mpr (ordered_of_order? hbelow)
  have hless' := comparison_less_iff.mpr (ordered_of_order? habove)
  refine ⟨hless, hless', comparison_one_order.less_trans hless hless', comparison_one_order.refused (by decide) ?_⟩
  rintro (⟨hnumber, -⟩ | ⟨s, t, -, hstring⟩)
  · cases hnumber
  · cases hstring

end Operation

end StackLang
