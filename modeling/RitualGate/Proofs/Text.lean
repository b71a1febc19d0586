import RitualGate.Statement.Token
import RitualGate.Text.Alphanumeric
import RitualGate.Text.Cut
import RitualGate.Text.Numeral
import RitualGate.Text.Utf8

/-!
# Cuts, numerals, characters and bytes

What the functions on texts undo: `splitOnce` a join at a character, `stripHead?` and `stripTail?`
an append, `readNumeral?` a numeral. Every alphanumeric character is a word character, and no two
texts have the same encoding.
-/

namespace RitualGate

namespace Text

/-! ## Cuts -/

theorem splitOnce_eq_none_iff {c : Char} {l : List Char} : splitOnce c l = none ↔ c ∉ l := by
  induction l with
  | nil => simp [splitOnce]
  | cons d l ih =>
    by_cases h : d = c
    · simp [splitOnce, h]
    · simp [splitOnce, h, ih, Ne.symm h]

theorem splitOnce_append {c : Char} {a : List Char} (h : c ∉ a) (b : List Char) :
    splitOnce c (a ++ c :: b) = some (a, b) := by
  induction a with
  | nil => simp [splitOnce]
  | cons d a ih =>
    rw [List.mem_cons, not_or] at h
    simp [splitOnce, Ne.symm h.1, ih h.2]

theorem splitOnce_eq_some {c : Char} {l a b : List Char} (h : splitOnce c l = some (a, b)) :
    l = a ++ c :: b ∧ c ∉ a := by
  induction l generalizing a with
  | nil => simp [splitOnce] at h
  | cons d l ih =>
    by_cases hd : d = c
    · simp only [splitOnce, hd, ↓reduceIte, Option.some.injEq, Prod.mk.injEq] at h
      obtain ⟨rfl, rfl⟩ := h
      simp [hd]
    · simp only [splitOnce, hd, ↓reduceIte, Option.map_eq_some_iff] at h
      obtain ⟨⟨a', b'⟩, hs, he⟩ := h
      cases he
      obtain ⟨rfl, hc⟩ := ih hs
      simp [hc, Ne.symm hd]

theorem stripHead?_eq_some_iff {head l r : List Char} :
    stripHead? head l = some r ↔ l = head ++ r := by
  induction head generalizing l with
  | nil => simp [stripHead?]
  | cons h hs ih =>
    cases l with
    | nil => simp [stripHead?]
    | cons c cs =>
      by_cases hc : h = c
      · simp [stripHead?, hc, ih]
      · simp [stripHead?, hc, Ne.symm hc]

theorem stripTail?_eq_some_iff {tail l r : List Char} :
    stripTail? tail l = some r ↔ l = r ++ tail := by
  simp only [stripTail?, Option.map_eq_some_iff, stripHead?_eq_some_iff]
  constructor
  · rintro ⟨a, ha, rfl⟩
    simpa using congrArg List.reverse ha
  · rintro rfl
    exact ⟨r.reverse, by simp, by simp⟩

/-! ## Numerals -/

theorem readNumeral?_numeralChars {n limit : Nat} (h : n ≤ limit) :
    readNumeral? limit (numeralChars n) = some n := by
  have hdigit : ∀ c ∈ numeralChars n, c.isDigit = true := fun c hc =>
    Nat.isDigit_of_mem_toDigits (by decide) (by decide) hc
  have hread : readDigits? limit (numeralChars n) = some n := by
    have hall : (numeralChars n).all Char.isDigit = true := List.all_eq_true.2 hdigit
    have hne : (numeralChars n).isEmpty = false := by
      simp [numeralChars, Nat.toDigits_ne_nil]
    have hval : Nat.ofDigitChars 10 (numeralChars n) 0 = n := Nat.ofDigitChars_ten_toDigits
    simp [readDigits?, hall, hne, hval, h]
  unfold readNumeral?
  split
  · rename_i ds he
    exact absurd (hdigit '+' (he ▸ List.mem_cons_self)) (by decide)
  · exact hread

/-! ## Characters -/

/-- No range of alphanumeric characters meets a range of blank ones. -/
theorem alphanumericRanges_disjoint : (alphanumericRanges.all fun a =>
    blankRanges.all fun b => decide (a.2 < b.1) || decide (b.2 < a.1)) = true := by
  decide +kernel

theorem not_isBlank_of_isAlphanumeric {c : Char} (h : isAlphanumeric c = true) :
    isBlank c = false := by
  refine Bool.eq_false_iff.2 fun hblank => ?_
  rw [isBlank, inRanges, List.any_eq_true] at hblank
  obtain ⟨b, hb, hbc⟩ := hblank
  simp only [Bool.and_eq_true, decide_eq_true_eq] at hbc
  unfold isAlphanumeric at h
  split at h
  · -- below the first range of the table only ASCII blanks are left
    rename_i hlt
    rw [show c.isAlphanum = ((decide ('A'.val ≤ c.val ∧ c.val ≤ 'Z'.val) ||
      decide ('a'.val ≤ c.val) && decide (c.val ≤ 'z'.val)) ||
      decide ('0'.val ≤ c.val) && decide (c.val ≤ '9'.val)) from rfl] at h
    simp only [Bool.or_eq_true, Bool.and_eq_true, decide_eq_true_eq, UInt32.le_iff_toNat_le] at h
    have hn : c.val.toNat = c.toNat := rfl
    simp only [hn] at h
    simp only [blankRanges, List.mem_cons, List.not_mem_nil, or_false] at hb
    rcases hb with rfl | rfl | rfl | rfl | rfl | rfl | rfl | rfl | rfl | rfl <;>
      simp at hbc h <;> omega
  · rw [inRanges, List.any_eq_true] at h
    obtain ⟨a, ha, hac⟩ := h
    simp only [Bool.and_eq_true, decide_eq_true_eq] at hac
    have := List.all_eq_true.1 (List.all_eq_true.1 alphanumericRanges_disjoint a ha) b hb
    simp only [Bool.or_eq_true, decide_eq_true_eq] at this
    omega

/-! ## Bytes -/

theorem toList_loop (bs : ByteArray) (i : Nat) (r : List UInt8) :
    ByteArray.toList.loop bs i r = r.reverse ++ bs.data.toList.drop i := by
  fun_induction ByteArray.toList.loop bs i r with
  | case1 i r h ih =>
    have hi : i < bs.data.toList.length := h
    have hget : bs.get! i = bs.data.toList.get ⟨i, hi⟩ := getElem!_pos bs.data i h
    rw [ih, List.reverse_cons, List.append_assoc, hget, List.singleton_append, List.get_eq_getElem,
      List.getElem_cons_drop]
  | case2 i r h =>
    have hi : bs.data.toList.length ≤ i := Nat.le_of_not_lt h
    rw [List.drop_eq_nil_of_le hi, List.append_nil]

theorem toList_eq (bs : ByteArray) : bs.toList = bs.data.toList := by
  rw [ByteArray.toList, toList_loop]
  rfl

/-- Texts with the same encoding are the same. -/
theorem encode_injective {s t : String} (h : encode s = encode t) : s = t := by
  rw [encode, encode, toList_eq, toList_eq, Array.toList_inj] at h
  exact String.toByteArray_inj.1 (ByteArray.ext h)

end Text

namespace Token

theorem isWordChar_eq_true_iff {c : Char} : isWordChar c = true ↔
    Text.isBlank c = false ∧ c ≠ '"' ∧ c ≠ '[' ∧ c ≠ ']' ∧ c ≠ ',' ∧ c ≠ '|' := by
  simp [isWordChar, and_assoc]

theorem isWordChar_of_isAlphanumeric {c : Char} (h : Text.isAlphanumeric c = true) :
    isWordChar c = true := by
  refine isWordChar_eq_true_iff.2 ⟨Text.not_isBlank_of_isAlphanumeric h, ?_, ?_, ?_, ?_, ?_⟩ <;>
    rintro rfl <;> exact absurd h (by decide)

end Token

end RitualGate
