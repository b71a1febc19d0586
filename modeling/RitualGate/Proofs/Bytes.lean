import Mathlib.Data.List.DropRight
import RitualGate.Proofs.Text

/-!
# Bytes and lines

A text is read back from its encoding (`decode?_encode`), and nothing else is read as that text
(`eq_encode_of_decode?`). The bytes below 128 of an encoding are its characters below 128
(`toNat_of_mem_encode`), so lines of bytes are lines of text, and bytes encode a text if and only if
what stands before such a byte and what follows it do (`isText_append_cons`). Bytes that are taken
for a text are that text if they encode one, and no other bytes are (`isText_iff`).

What stands before a line feed and what follows it have their lines apart
(`splitLines_append`), so lines that are ended by line feeds come apart again
(`splitLines_flatMap`). Behind the last line feed of a file there is its `unended` line.
-/

namespace RitualGate.Text

/-! ## Encodings -/

theorem encode_eq (s : String) : encode s = s.toList.flatMap String.utf8EncodeChar := by
  have hbytes : s.toByteArray = (s.toList.flatMap String.utf8EncodeChar).toByteArray := by
    rw [← String.utf8Encode_toList]
    rfl
  rw [encode, String.toUTF8_eq_toByteArray, toList_eq, hbytes, List.toList_data_toByteArray]

theorem encode_append (s t : String) : encode (s ++ t) = encode s ++ encode t := by
  rw [encode_eq, encode_eq, encode_eq, String.toList_append, List.flatMap_append]

theorem toByteArray_encode (s : String) : (encode s).toByteArray = s.toByteArray := by
  rw [encode_eq, ← String.utf8Encode_toList]
  rfl

theorem decode?_encode (s : String) : decode? (encode s) = some s := by
  rw [decode?, toByteArray_encode, String.fromUTF8?, dif_pos s.isValidUTF8]
  rfl

theorem eq_encode_of_decode? {bytes : Bytes} {s : String} (h : decode? bytes = some s) :
    bytes = encode s := by
  rw [decode?, String.fromUTF8?] at h
  split at h
  · cases h
    rw [encode, String.toUTF8_eq_toByteArray, toList_eq]
    exact List.toList_data_toByteArray.symm
  · cases h

theorem toNat_of_mem_utf8EncodeChar {c : Char} {b : UInt8} (h : b ∈ String.utf8EncodeChar c)
    (hb : b.toNat < 128) : c.toNat = b.toNat := by
  have high {n : Nat} (hlow : 128 ≤ n) (hn : n < 256) (hbn : b = UInt8.ofNat n) : False := by
    rw [hbn, UInt8.toNat_ofNat', Nat.mod_eq_of_lt hn] at hb
    omega
  unfold String.utf8EncodeChar at h
  simp only at h
  split at h
  · rename_i hc
    obtain rfl := List.mem_singleton.1 h
    rw [UInt8.toNat_ofNat', Nat.mod_eq_of_lt (by omega)]
    rfl
  all_goals exfalso
  split at h
  · simp only [List.mem_cons, List.not_mem_nil, or_false] at h
    rcases h with h | h <;> exact high (by omega) (by omega) h
  split at h
  · simp only [List.mem_cons, List.not_mem_nil, or_false] at h
    rcases h with h | h | h <;> exact high (by omega) (by omega) h
  · simp only [List.mem_cons, List.not_mem_nil, or_false] at h
    rcases h with h | h | h | h <;> exact high (by omega) (by omega) h

theorem toNat_of_mem_encode {s : String} {b : UInt8} (h : b ∈ encode s) (hb : b.toNat < 128) :
    ∃ c ∈ s.toList, c.toNat = b.toNat := by
  rw [encode_eq, List.mem_flatMap] at h
  obtain ⟨c, hc, hbc⟩ := h
  exact ⟨c, hc, toNat_of_mem_utf8EncodeChar hbc hb⟩

/-! ## Bytes that are taken for a text -/

theorem firstChar?_append (c : Char) (rest : Bytes) :
    firstChar? (String.utf8EncodeChar c ++ rest) = some c := by
  rw [firstChar?, List.toByteArray_append]
  exact ByteArray.utf8DecodeChar?_utf8EncodeChar_append

theorem eq_of_firstChar? {bytes : Bytes} {c : Char} (h : firstChar? bytes = some c) :
    ∃ rest, bytes = String.utf8EncodeChar c ++ rest := by
  have hbytes := congrArg (fun b => b.data.toList) (ByteArray.eq_of_utf8DecodeChar?_eq_some h)
  exact ⟨_, by simpa using hbytes⟩

theorem lossyFrom_length (front rest : Bytes) :
    lossyFrom front.length (front ++ rest) = lossyFrom 0 rest := by
  induction front with
  | nil => rfl
  | cons b front ih => exact ih

theorem lossyFrom_append (c : Char) (rest : Bytes) :
    lossyFrom 0 (String.utf8EncodeChar c ++ rest) = c :: lossyFrom 0 rest := by
  have hfirst := firstChar?_append c rest
  have hlength := String.length_utf8EncodeChar c
  obtain ⟨b, bs, hbs⟩ := List.exists_cons_of_ne_nil (String.utf8EncodeChar_ne_nil (c := c))
  rw [hbs, List.cons_append] at hfirst ⊢
  rw [hbs, List.length_cons] at hlength
  rw [lossyFrom, hfirst]
  dsimp only
  rw [← hlength, Nat.add_sub_cancel, lossyFrom_length]

/-- A text is taken for itself. -/
theorem lossy_encode (s : String) : lossy (encode s) = s := by
  have hchars (cs : List Char) : lossyFrom 0 (cs.flatMap String.utf8EncodeChar) = cs := by
    induction cs with
    | nil => rfl
    | cons c cs ih => rw [List.flatMap_cons, lossyFrom_append, ih]
  rw [lossy, encode_eq, hchars, String.ofList_toList]

/-- Bytes that encode a text. -/
def IsText (bytes : Bytes) : Prop :=
  ∃ s, encode s = bytes

theorem isText_encode (s : String) : IsText (encode s) := ⟨s, rfl⟩

theorem isText_iff {bytes : Bytes} : IsText bytes ↔ encode (lossy bytes) = bytes := by
  constructor
  · rintro ⟨s, rfl⟩
    rw [lossy_encode]
  · exact fun h => ⟨_, h⟩

instance (bytes : Bytes) : Decidable (IsText bytes) :=
  decidable_of_iff _ isText_iff.symm

theorem isText_flatMap (cs : List Char) : IsText (cs.flatMap String.utf8EncodeChar) :=
  ⟨String.ofList cs, by rw [encode_eq, String.toList_ofList]⟩

theorem IsText.append {front rest : Bytes} (hfront : IsText front) (hrest : IsText rest) :
    IsText (front ++ rest) := by
  obtain ⟨s, rfl⟩ := hfront
  obtain ⟨t, rfl⟩ := hrest
  exact ⟨s ++ t, encode_append s t⟩

theorem utf8EncodeChar_of_lt {c : Char} (hc : c.toNat < 128) :
    String.utf8EncodeChar c = [c.val.toUInt8] :=
  String.utf8EncodeChar_eq_singleton (Char.utf8Size_eq_one_iff.2 (Nat.le_of_lt_succ hc))

theorem utf8EncodeChar_ofUInt8 {b : UInt8} (hb : b.toNat < 128) :
    String.utf8EncodeChar (Char.ofUInt8 b) = [b] := by
  have hsingle : String.utf8EncodeChar (Char.ofUInt8 b) = [b.toUInt32.toUInt8] :=
    utf8EncodeChar_of_lt hb
  simpa using hsingle

/-- A byte below 128 that bytes begin with is kept as it is, and none comes in its place. -/
theorem head?_encode_lossy {b : UInt8} (hb : b.toNat < 128) (bytes : Bytes) :
    (encode (lossy bytes)).head? = some b ↔ bytes.head? = some b := by
  cases bytes with
  | nil => simp [encode_eq, lossy, lossyFrom]
  | cons b' bs =>
    rw [encode_eq, lossy, String.toList_ofList]
    cases hfirst : firstChar? (b' :: bs) with
    | some c =>
      obtain ⟨rest, hrest⟩ := eq_of_firstChar? hfirst
      rw [hrest, lossyFrom_append, List.flatMap_cons, List.head?_append_of_ne_nil _ (by simp),
        List.head?_append_of_ne_nil _ (by simp)]
    | none =>
      have hreplaced : (String.utf8EncodeChar replacement).head? = some 0xEF := by decide +kernel
      rw [lossyFrom, hfirst, List.flatMap_cons, List.head?_append_of_ne_nil _ (by simp), hreplaced]
      constructor
      · intro h
        cases h
        exact absurd hb (by decide)
      · intro h
        cases h
        have hsome := firstChar?_append (Char.ofUInt8 b) bs
        rw [utf8EncodeChar_ofUInt8 hb, List.singleton_append, hfirst] at hsome
        cases hsome

/-- A byte below 128 cuts an encoding into two. -/
theorem isText_append_cons {b : UInt8} (hb : b.toNat < 128) {front rest : Bytes} :
    IsText (front ++ b :: rest) ↔ IsText front ∧ IsText rest := by
  constructor
  · rintro ⟨s, hs⟩
    rw [encode_eq] at hs
    generalize s.toList = cs at hs
    induction cs generalizing front with
    | nil => simp at hs
    | cons c cs ih =>
      have hc : IsText (String.utf8EncodeChar c) := by
        simpa using isText_flatMap [c]
      rw [List.flatMap_cons] at hs
      -- the byte stands behind the first character, or it is that character
      obtain ⟨more, rfl, hmore⟩ | ⟨more, hfirst, hmore⟩ := List.append_eq_append_iff.1 hs
      · obtain ⟨hfront, hrest⟩ := ih hmore
        exact ⟨hc.append hfront, hrest⟩
      · cases more with
        | nil =>
          rw [List.append_nil] at hfirst
          have hempty : IsText [] ∧ IsText rest := ih hmore.symm
          exact ⟨hfirst ▸ hc, hempty.2⟩
        | cons b' more =>
          obtain ⟨rfl, rfl⟩ := List.cons.inj hmore
          have hmem : b ∈ String.utf8EncodeChar c := by simp [hfirst]
          have hsingle := utf8EncodeChar_of_lt ((toNat_of_mem_utf8EncodeChar hmem hb).trans_lt hb)
          rw [hsingle] at hfirst
          obtain ⟨rfl, hrest⟩ | ⟨-, hempty⟩ := List.singleton_eq_append_iff.1 hfirst
          · obtain ⟨-, rfl⟩ := List.cons.inj hrest
            exact ⟨isText_flatMap [], isText_flatMap cs⟩
          · cases hempty
  · rintro ⟨hfront, hrest⟩
    have hbyte : IsText [b] := by
      simpa [utf8EncodeChar_ofUInt8 hb] using isText_flatMap [Char.ofUInt8 b]
    exact hfront.append (hbyte.append hrest)

/-! ## Lines -/

section Lines

variable {α : Type} [DecidableEq α] {cr lf : α}

theorem splitLines_ne_nil {l : List α} (h : l ≠ []) : splitLines cr lf l ≠ [] := by
  induction l with
  | nil => exact absurd rfl h
  | cons c cs ih =>
    unfold splitLines
    split
    · exact List.cons_ne_nil _ _
    · split
      · exact List.cons_ne_nil _ _
      · split
        · exact ih (List.cons_ne_nil _ _)
        · split <;> exact List.cons_ne_nil _ _

/-- The lines of what ends with a line feed come before the lines of what follows. -/
theorem splitLines_append {c : List α} (h : c = [] ∨ c.getLast? = some lf) (d : List α) :
    splitLines cr lf (c ++ d) = splitLines cr lf c ++ splitLines cr lf d := by
  induction c with
  | nil => rfl
  | cons x cs ih =>
    have hlast := h.resolve_left (List.cons_ne_nil _ _)
    cases cs with
    | nil =>
      obtain rfl : x = lf := by simpa using hlast
      simp [splitLines]
    | cons y ys =>
      have hih := ih (.inr (by simpa using hlast))
      rw [List.cons_append] at hih
      rw [List.cons_append, List.cons_append, splitLines, splitLines, hih]
      by_cases hx : x = lf
      · rw [if_pos hx, if_pos hx, List.cons_append]
      · rw [if_neg hx, if_neg hx]
        by_cases hcr : x = cr ∧ y = lf
        · rw [if_pos hcr, if_pos hcr]
        · rw [if_neg hcr, if_neg hcr]
          cases hls : splitLines cr lf (y :: ys) with
          | nil => exact absurd hls (splitLines_ne_nil (List.cons_ne_nil _ _))
          | cons l ls => rfl

theorem splitLines_unended {l : List α} (hl : lf ∉ l) (hne : l ≠ []) :
    splitLines cr lf l = [l] := by
  induction l with
  | nil => exact absurd rfl hne
  | cons x l ih =>
    rw [List.mem_cons, not_or] at hl
    obtain ⟨hx, hl⟩ := hl
    cases l with
    | nil => simp [splitLines, Ne.symm hx]
    | cons y ys =>
      have hy : y ≠ lf := fun hy => hl (by simp [hy])
      rw [splitLines, if_neg (Ne.symm hx), ih hl (List.cons_ne_nil _ _)]
      exact if_neg fun hcr => hy hcr.2

/-- A line that does not end with a carriage return, up to its line feed. -/
theorem splitLines_line {l : List α} (hl : lf ∉ l) (hcr : l.getLast? ≠ some cr) (rest : List α) :
    splitLines cr lf (l ++ lf :: rest) = l :: splitLines cr lf rest := by
  have hline : splitLines cr lf (l ++ [lf]) = [l] := by
    clear rest
    induction l with
    | nil => simp [splitLines]
    | cons x l ih =>
      rw [List.mem_cons, not_or] at hl
      obtain ⟨hx, hl⟩ := hl
      cases l with
      | nil =>
        have hxcr : x ≠ cr := fun hx => hcr (by simp [hx])
        simp [splitLines, Ne.symm hx, hxcr]
      | cons y ys =>
        have hy : y ≠ lf := fun hy => hl (by simp [hy])
        have hrest := ih hl (by simpa using hcr)
        rw [List.cons_append] at hrest
        rw [List.cons_append, List.cons_append, splitLines, if_neg (Ne.symm hx), hrest]
        exact if_neg fun h => hy h.2
  have hsplit : splitLines cr lf (l ++ [lf] ++ rest) = _ := splitLines_append (.inr (by simp)) rest
  rw [hline, List.append_assoc] at hsplit
  exact hsplit

/-- A line up to its carriage return and line feed. -/
theorem splitLines_crlf {l : List α} (hne : cr ≠ lf) (hl : lf ∉ l) (rest : List α) :
    splitLines cr lf (l ++ cr :: lf :: rest) = l :: splitLines cr lf rest := by
  induction l with
  | nil => simp [splitLines, hne]
  | cons x l ih =>
    rw [List.mem_cons, not_or] at hl
    obtain ⟨hx, hl⟩ := hl
    have hrest := ih hl
    cases l with
    | nil =>
      rw [List.nil_append] at hrest
      rw [List.cons_append, List.nil_append, splitLines, if_neg (Ne.symm hx), hrest]
      exact if_neg fun h => hne h.2
    | cons y ys =>
      have hy : y ≠ lf := fun hy => hl (by simp [hy])
      rw [List.cons_append] at hrest
      rw [List.cons_append, List.cons_append, splitLines, if_neg (Ne.symm hx), hrest]
      exact if_neg fun h => hy h.2

/-- Lines that are ended by line feeds come apart again. -/
theorem splitLines_flatMap {ls : List (List α)}
    (h : ∀ l ∈ ls, lf ∉ l ∧ l.getLast? ≠ some cr) :
    splitLines cr lf (ls.flatMap (· ++ [lf])) = ls := by
  induction ls with
  | nil => rfl
  | cons l ls ih =>
    obtain ⟨⟨hl, hcr⟩, hls⟩ := List.forall_mem_cons.1 h
    rw [List.flatMap_cons, List.append_assoc, List.singleton_append, splitLines_line hl hcr, ih hls]

/-- No line holds a line feed. -/
theorem lf_notMem_splitLines {cs line : List α} (h : line ∈ splitLines cr lf cs) : lf ∉ line := by
  fun_induction splitLines cr lf cs generalizing line with
  | case1 => cases h
  | case2 cs ih =>
    rcases List.mem_cons.1 h with rfl | h
    · exact List.not_mem_nil
    · exact ih h
  | case3 c hc =>
    obtain rfl := List.mem_singleton.1 h
    simpa using Ne.symm hc
  | case4 c hc d ds hcr ih => exact ih h
  | case5 c hc d ds hcr hnil ih => exact absurd hnil (splitLines_ne_nil (List.cons_ne_nil _ _))
  | case6 c hc d ds hcr l ls hls ih =>
    simp only [hls] at h ih
    rcases List.mem_cons.1 h with rfl | h
    · simpa using ⟨Ne.symm hc, ih List.mem_cons_self⟩
    · exact ih (List.mem_cons_of_mem _ h)

end Lines

/-- What stands behind the last line feed. -/
def unended (bytes : Bytes) : Bytes :=
  bytes.rtakeWhile fun b => b != 0x0A

/-- What stands up to the last line feed. -/
def ended (bytes : Bytes) : Bytes :=
  bytes.rdropWhile fun b => b != 0x0A

theorem ended_append_unended (bytes : Bytes) : ended bytes ++ unended bytes = bytes :=
  List.rdropWhile_append_rtakeWhile

theorem lf_notMem_unended (bytes : Bytes) : 0x0A ∉ unended bytes :=
  fun h => absurd (List.mem_rtakeWhile_imp h) (by decide)

theorem unended_of_notMem {bytes : Bytes} (h : 0x0A ∉ bytes) :
    unended bytes = bytes ∧ ended bytes = [] := by
  have hall : ∀ b ∈ bytes, (b != 0x0A) = true := by
    intro b hb
    rw [bne_iff_ne]
    rintro rfl
    exact h hb
  exact ⟨List.rtakeWhile_eq_self_iff.2 hall, List.rdropWhile_eq_nil_iff.2 hall⟩

theorem getLast?_ended (bytes : Bytes) :
    ended bytes = [] ∨ (ended bytes).getLast? = some 0x0A := by
  by_cases h : ended bytes = []
  · exact .inl h
  · right
    have hlast : ¬ ((ended bytes).getLast h != 0x0A) = true := List.rdropWhile_last_not _ _ h
    rw [List.getLast?_eq_some_getLast h]
    simpa using hlast

end RitualGate.Text
