import RitualGate.Proofs.Text
import RitualGate.Statement.Canonical

/-!
# Spellings of tokens

`Spells ks cs` says that the characters `cs` write down tokens of the kinds `ks`: blanks anywhere
between them, punctuation by its character, a word by its characters as long as no word character
follows it, and a quoted text between quotes, with a body that `Body` relates to it. Scanning a
spelling gives back the tokens (`scan_of_spells`), what was scanned is a spelling of the tokens found
(`spells_of_scan`), and the words among them are made of word characters (`words_of_scan`).
-/

namespace RitualGate

namespace Token

/-! ## The relation -/

/-- `Body b q`: what stands between quotes as `b` means `q`. A backslash takes the meaning from a
quote or a backslash behind it; every other character, a backslash before anything else included,
stands for itself. -/
inductive Body : List Char → List Char → Prop
  | done : Body [] []
  | escape {c : Char} {b q : List Char} (hc : c = '"' ∨ c = '\\') (h : Body b q) :
    Body ('\\' :: c :: b) (c :: q)
  | letter {c : Char} {b q : List Char} (hq : c ≠ '"')
      (hs : c = '\\' → ∃ d r, b = d :: r ∧ d ≠ '"' ∧ d ≠ '\\') (h : Body b q) :
    Body (c :: b) (c :: q)

/-- No word goes on at the start of some characters. -/
def Separated (cs : List Char) : Prop :=
  ∀ c ∈ cs.head?, isWordChar c = false

/-- `Spells ks cs`: the characters `cs` write down tokens of the kinds `ks`. -/
inductive Spells : List TokenKind → List Char → Prop
  | done : Spells [] []
  | blank {ks : List TokenKind} {c : Char} {cs : List Char} (hc : Text.isBlank c = true)
      (h : Spells ks cs) : Spells ks (c :: cs)
  | mark {k : TokenKind} {ks : List TokenKind} {c : Char} {cs : List Char}
      (hk : punctuation? c = some k) (h : Spells ks cs) : Spells (k :: ks) (c :: cs)
  | quoted {b q : List Char} {ks : List TokenKind} {cs : List Char} (hb : Body b q)
      (h : Spells ks cs) : Spells (.quoted q :: ks) ('"' :: (b ++ '"' :: cs))
  | word {w : List Char} {ks : List TokenKind} {cs : List Char} (hne : w ≠ [])
      (hw : ∀ c ∈ w, isWordChar c = true) (hs : Separated cs) (h : Spells ks cs) :
    Spells (.word w :: ks) (w ++ cs)

/-! ## Single characters -/

theorem punctuation?_cases {c : Char} {k : TokenKind} (h : punctuation? c = some k) :
    (c = '[' ∧ k = .openBracket) ∨ (c = ']' ∧ k = .closeBracket) ∨ (c = ',' ∧ k = .comma) ∨
      (c = '|' ∧ k = .pipe) := by
  unfold punctuation? at h
  repeat' split at h
  all_goals simp_all

theorem isBlank_of_punctuation? {c : Char} {k : TokenKind} (h : punctuation? c = some k) :
    Text.isBlank c = false ∧ c ≠ '"' := by
  rcases punctuation?_cases h with ⟨rfl, -⟩ | ⟨rfl, -⟩ | ⟨rfl, -⟩ | ⟨rfl, -⟩ <;> decide

theorem punctuation?_ne_word {c : Char} {k : TokenKind} (h : punctuation? c = some k)
    (w : List Char) : k ≠ .word w := by
  rcases punctuation?_cases h with ⟨-, rfl⟩ | ⟨-, rfl⟩ | ⟨-, rfl⟩ | ⟨-, rfl⟩ <;> simp

theorem isWordChar_iff {c : Char} :
    isWordChar c = true ↔ Text.isBlank c = false ∧ c ≠ '"' ∧ punctuation? c = none := by
  rw [isWordChar_eq_true_iff]
  unfold punctuation?
  repeat' split
  all_goals simp [*]

theorem scanFrom_blank {c : Char} (hc : Text.isBlank c = true) (column : Nat) (cs : List Char) :
    scanFrom column (c :: cs) = scanFrom (column + 1) cs := by
  rw [scanFrom, if_pos hc]

theorem scanFrom_mark {c : Char} {k : TokenKind} (hk : punctuation? c = some k) (column : Nat)
    (cs : List Char) :
    scanFrom column (c :: cs) = (⟨k, column⟩ :: ·) <$> scanFrom (column + 1) cs := by
  obtain ⟨hb, hq⟩ := isBlank_of_punctuation? hk
  rw [scanFrom, if_neg (by simp [hb]), if_neg hq, hk]

theorem scanFrom_quote (column : Nat) (cs : List Char) :
    scanFrom column ('"' :: cs) = scanQuoted column (column + 1) [] false cs := by
  rw [scanFrom, if_neg (by decide), if_pos rfl]

theorem scanFrom_wordChar {c : Char} (hc : isWordChar c = true) (column : Nat) (cs : List Char) :
    scanFrom column (c :: cs) = glue c column <$> scanFrom (column + 1) cs := by
  obtain ⟨hb, hq, hp⟩ := isWordChar_iff.1 hc
  rw [scanFrom, if_neg (by simp [hb]), if_neg hq, hp]

/-- A character is blank, a quote, punctuation or a word character. -/
theorem char_cases (c : Char) : Text.isBlank c = true ∨ c = '"' ∨ (∃ k, punctuation? c = some k) ∨
    isWordChar c = true := by
  cases hb : Text.isBlank c
  · by_cases hq : c = '"'
    · exact .inr (.inl hq)
    · cases hp : punctuation? c with
      | none => exact .inr (.inr (.inr (isWordChar_iff.2 ⟨hb, hq, hp⟩)))
      | some k => exact .inr (.inr (.inl ⟨k, rfl⟩))
  · exact .inl rfl

/-! ## What a scan finds -/

/-- A token that can follow a column in a scan: it starts no earlier, and if it is a word, it is a
run of word characters. -/
def Plausible (column : Nat) (t : Token) : Prop :=
  column ≤ t.column ∧ ∀ w, t.kind = .word w → w ≠ [] ∧ ∀ c ∈ w, isWordChar c = true

theorem Plausible.mono {a b : Nat} {t : Token} (h : Plausible b t) (hab : a ≤ b) :
    Plausible a t :=
  ⟨Nat.le_trans hab h.1, h.2⟩

theorem plausible_glue {c : Char} (hc : isWordChar c = true) {column : Nat} {ts : List Token}
    (h : ∀ t ∈ ts, Plausible (column + 1) t) : ∀ t ∈ glue c column ts, Plausible column t := by
  have alone : Plausible column ⟨.word [c], column⟩ :=
    ⟨Nat.le_refl _, fun w hw => by cases hw; simp [hc]⟩
  have later : ∀ t ∈ ts, Plausible column t := fun t ht => (h t ht).mono (Nat.le_succ _)
  cases ts with
  | nil => simpa [glue] using alone
  | cons t ts =>
    cases hk : t.kind with
    | word w =>
      simp only [glue, hk]
      split
      · refine List.forall_mem_cons.2 ⟨⟨Nat.le_refl _, fun w' hw' => ?_⟩, fun u hu =>
          later u (List.mem_cons_of_mem _ hu)⟩
        cases hw'
        exact ⟨by simp, List.forall_mem_cons.2 ⟨hc, ((h t List.mem_cons_self).2 w hk).2⟩⟩
      · exact List.forall_mem_cons.2 ⟨alone, later⟩
    | _ =>
      simp only [glue, hk]
      exact List.forall_mem_cons.2 ⟨alone, later⟩

/-- The recursion of the scan goes back and forth between the two functions, so what they find is
one statement. -/
theorem plausible_scan (cs : List Char) :
    (∀ {column ts}, scanFrom column cs = .ok ts → ∀ t ∈ ts, Plausible column t) ∧
    (∀ {start column body slash ts}, start ≤ column →
      scanQuoted start column body slash cs = .ok ts →
      ∃ q rest, ts = ⟨.quoted q, start⟩ :: rest ∧ ∀ t ∈ rest, Plausible start t) := by
  induction cs with
  | nil =>
    refine ⟨fun h => ?_, fun _ h => ?_⟩
    · cases h
      simp
    · cases h
  | cons c cs ih =>
    obtain ⟨ihFrom, ihQuoted⟩ := ih
    refine ⟨fun {column ts} h => ?_, fun {start column body slash ts} hle h => ?_⟩
    · rcases char_cases c with hb | rfl | ⟨k, hk⟩ | hw
      · rw [scanFrom_blank hb] at h
        exact fun t ht => (ihFrom h t ht).mono (Nat.le_succ _)
      · rw [scanFrom_quote] at h
        obtain ⟨q, rest, rfl, hrest⟩ := ihQuoted (Nat.le_succ _) h
        exact List.forall_mem_cons.2 ⟨⟨Nat.le_refl _, fun w hw => by cases hw⟩, hrest⟩
      · rw [scanFrom_mark hk] at h
        cases hs : scanFrom (column + 1) cs with
        | error e =>
          rw [hs] at h
          cases h
        | ok rest =>
          rw [hs] at h
          cases h
          refine List.forall_mem_cons.2 ⟨⟨Nat.le_refl _, fun w hw => ?_⟩, fun t ht => ?_⟩
          · exact absurd hw (punctuation?_ne_word hk w)
          · exact (ihFrom hs t ht).mono (Nat.le_succ _)
      · rw [scanFrom_wordChar hw] at h
        cases hs : scanFrom (column + 1) cs with
        | error e =>
          rw [hs] at h
          cases h
        | ok rest =>
          rw [hs] at h
          cases h
          exact plausible_glue hw (ihFrom hs)
    · have hle' : start ≤ column + 1 := Nat.le_succ_of_le hle
      rw [scanQuoted] at h
      split at h
      · split at h <;> exact ihQuoted hle' h
      · split at h
        · cases hs : scanFrom (column + 1) cs with
          | error e =>
            rw [hs] at h
            cases h
          | ok rest =>
            rw [hs] at h
            cases h
            exact ⟨body.reverse, rest, rfl, fun t ht => (ihFrom hs t ht).mono hle'⟩
        · split at h <;> exact ihQuoted hle' h

/-- The words of a line are runs of word characters. -/
theorem words_of_scan {line : String} {ts : List Token} (h : scan line = .ok ts) :
    ∀ t ∈ ts, ∀ w, t.kind = .word w → w ≠ [] ∧ ∀ c ∈ w, isWordChar c = true :=
  fun t ht => ((plausible_scan line.toList).1 h t ht).2

/-! ## Scanning a spelling -/

theorem scanQuoted_slash {d : Char} (hq : d ≠ '"') (hs : d ≠ '\\') (start column : Nat)
    (body cs : List Char) :
    scanQuoted start (column + 1) body true (d :: cs) =
      scanQuoted start (column + 1) ('\\' :: body) false (d :: cs) := by
  rw [scanQuoted, scanQuoted]
  simp [hq, hs]

theorem scanQuoted_body {b q : List Char} (h : Body b q) (start column : Nat)
    (body cs : List Char) :
    scanQuoted start column body false (b ++ '"' :: cs) =
      (⟨.quoted (body.reverse ++ q), start⟩ :: ·) <$> scanFrom (column + b.length + 1) cs := by
  induction h generalizing column body with
  | done => simp [scanQuoted]
  | escape hc _ ih =>
    rw [List.cons_append, scanQuoted, if_neg (by decide), if_neg (by decide), if_pos rfl,
      List.cons_append, scanQuoted, if_pos rfl, if_pos hc, ih]
    simp [Nat.add_comm, Nat.add_left_comm]
  | @letter c b q hq hs _ ih =>
    have next : scanQuoted start column body false (c :: (b ++ '"' :: cs)) =
        scanQuoted start (column + 1) (c :: body) false (b ++ '"' :: cs) := by
      by_cases hc : c = '\\'
      · obtain ⟨d, r, rfl, hdq, hds⟩ := hs hc
        rw [scanQuoted, if_neg (by decide), if_neg hq, if_pos hc, List.cons_append,
          scanQuoted_slash hdq hds, hc]
      · rw [scanQuoted, if_neg (by decide), if_neg hq, if_neg hc]
    rw [List.cons_append, next, ih]
    simp [Nat.add_comm, Nat.add_left_comm]

/-- A character in front of a scan that starts with no word right there makes a word of its own. -/
theorem glue_separated {c : Char} {column : Nat} {cs : List Char} {ts : List Token}
    (hs : Separated cs) (h : scanFrom (column + 1) cs = .ok ts) :
    glue c column ts = ⟨.word [c], column⟩ :: ts := by
  cases cs with
  | nil =>
    cases h
    rfl
  | cons d cs =>
    cases ts with
    | nil => rfl
    | cons t ts =>
      have apart : ∀ w, t.kind = .word w → t.column ≠ column + 1 := by
        intro w hw
        rcases char_cases d with hb | rfl | ⟨k, hk⟩ | hd
        · rw [scanFrom_blank hb] at h
          have := ((plausible_scan cs).1 h t List.mem_cons_self).1
          omega
        · rw [scanFrom_quote] at h
          obtain ⟨q, rest, hts, -⟩ := (plausible_scan cs).2 (Nat.le_succ _) h
          obtain ⟨rfl, -⟩ := List.cons.inj hts
          cases hw
        · rw [scanFrom_mark hk] at h
          cases hrest : scanFrom (column + 1 + 1) cs with
          | error e =>
            rw [hrest] at h
            cases h
          | ok rest =>
            rw [hrest] at h
            cases h
            exact absurd hw (punctuation?_ne_word hk w)
        · exact absurd (hs d rfl) (by simp [hd])
      cases hk : t.kind with
      | word w => simp [glue, hk, apart w hk]
      | _ => simp [glue, hk]

theorem scanFrom_word {w : List Char} (hne : w ≠ []) (hw : ∀ c ∈ w, isWordChar c = true)
    {cs : List Char} (hs : Separated cs) {column : Nat} {ts : List Token}
    (h : scanFrom (column + w.length) cs = .ok ts) :
    scanFrom column (w ++ cs) = .ok (⟨.word w, column⟩ :: ts) := by
  induction w generalizing column with
  | nil => exact absurd rfl hne
  | cons c w ih =>
    rw [List.cons_append, scanFrom_wordChar (hw c List.mem_cons_self)]
    cases w with
    | nil =>
      rw [List.length_singleton] at h
      rw [List.nil_append, h]
      exact congrArg Except.ok (glue_separated hs h)
    | cons d w =>
      have hcolumn : column + 1 + (d :: w).length = column + (c :: d :: w).length := by
        simp only [List.length_cons]
        omega
      rw [← hcolumn] at h
      rw [ih (by simp) (fun e he => hw e (List.mem_cons_of_mem _ he)) h]
      simp [glue, Functor.map, Except.map]

/-- Scanning a spelling gives tokens of the kinds that it spells. -/
theorem scanFrom_of_spells {ks : List TokenKind} {cs : List Char} (h : Spells ks cs)
    (column : Nat) : ∃ ts, scanFrom column cs = .ok ts ∧ ts.map Token.kind = ks := by
  induction h generalizing column with
  | done => exact ⟨[], by simp [scanFrom], rfl⟩
  | blank hc _ ih =>
    rw [scanFrom_blank hc]
    exact ih _
  | @mark k _ _ _ hk _ ih =>
    obtain ⟨ts, hts, rfl⟩ := ih (column + 1)
    exact ⟨⟨k, column⟩ :: ts, by rw [scanFrom_mark hk, hts]; rfl, rfl⟩
  | @quoted b q _ _ hb _ ih =>
    obtain ⟨ts, hts, rfl⟩ := ih (column + 1 + b.length + 1)
    refine ⟨⟨.quoted q, column⟩ :: ts, ?_, rfl⟩
    rw [scanFrom_quote, scanQuoted_body hb, hts]
    rfl
  | @word w _ _ hne hw hs _ ih =>
    obtain ⟨ts, hts, rfl⟩ := ih (column + w.length)
    exact ⟨⟨.word w, column⟩ :: ts, scanFrom_word hne hw hs hts, rfl⟩

theorem scan_of_spells {ks : List TokenKind} {line : String} (h : Spells ks line.toList) :
    ∃ ts, scan line = .ok ts ∧ ts.map Token.kind = ks :=
  scanFrom_of_spells h 1

/-! ## What a scan reads is a spelling -/

theorem map_eq_ok_iff {ε α β : Type} {x : Except ε α} {f : α → β} {b : β} :
    f <$> x = .ok b ↔ ∃ a, x = .ok a ∧ f a = b := by
  cases x with
  | error e => exact ⟨nofun, nofun⟩
  | ok a => exact ⟨fun h => ⟨a, rfl, Except.ok.inj h⟩, fun ⟨_, ha, hb⟩ => by cases ha; exact hb ▸ rfl⟩

theorem glue_head (c : Char) (column : Nat) (ts : List Token) :
    ∃ w more, glue c column ts = ⟨.word w, column⟩ :: more := by
  cases ts with
  | nil => exact ⟨_, _, rfl⟩
  | cons t ts =>
    cases hk : t.kind with
    | word w =>
      simp only [glue, hk]
      split <;> exact ⟨_, _, rfl⟩
    | _ =>
      simp only [glue, hk]
      exact ⟨_, _, rfl⟩

/-- A word of which more characters stand in front. -/
theorem Spells.grow {w : List Char} {ks : List TokenKind} {c d : Char} {cs : List Char}
    (hc : isWordChar c = true) (hd : isWordChar d = true) (h : Spells (.word w :: ks) (d :: cs)) :
    Spells (.word (c :: w) :: ks) (c :: d :: cs) := by
  generalize hcs : d :: cs = l at h
  cases h with
  | blank hb => exact absurd hb (by simp_all [isWordChar_iff])
  | mark hk => exact absurd rfl (punctuation?_ne_word hk w)
  | word hne hw hs h =>
    exact .word (List.cons_ne_nil _ _) (List.forall_mem_cons.2 ⟨hc, hw⟩) hs h

theorem spells_glue {c : Char} {column : Nat} {cs : List Char} {ts : List Token}
    (hc : isWordChar c = true) (hscan : scanFrom (column + 1) cs = .ok ts)
    (h : Spells (ts.map Token.kind) cs) : Spells ((glue c column ts).map Token.kind) (c :: cs) := by
  have alone (hs : Separated cs) : Spells ((glue c column ts).map Token.kind) (c :: cs) := by
    rw [glue_separated hs hscan]
    exact .word (w := [c]) (List.cons_ne_nil _ _) (by simpa using hc) hs h
  cases cs with
  | nil => exact alone (by simp [Separated])
  | cons d cs =>
    cases hd : isWordChar d with
    | false => exact alone (by simpa [Separated] using hd)
    | true =>
      -- the word that follows starts right here
      rw [scanFrom_wordChar hd] at hscan
      obtain ⟨rest, -, rfl⟩ := map_eq_ok_iff.1 hscan
      obtain ⟨w, more, hglue⟩ := glue_head d (column + 1) rest
      rw [hglue] at h ⊢
      simpa [glue] using h.grow hc hd

/-- What was read is a spelling of the tokens: from a place outside quotes the text itself, and from
a place within quotes the text up to the closing quote, with the backslash in front of it if there
is one. -/
theorem spells_scan (cs : List Char) :
    (∀ {column ts}, scanFrom column cs = .ok ts → Spells (ts.map Token.kind) cs) ∧
    (∀ {start column body slash ts}, scanQuoted start column body slash cs = .ok ts →
      ∃ b q rest us, (if slash then '\\' :: cs else cs) = b ++ '"' :: rest ∧ Body b q ∧
        ts = ⟨.quoted (body.reverse ++ q), start⟩ :: us ∧ Spells (us.map Token.kind) rest) := by
  induction cs with
  | nil =>
    refine ⟨fun h => ?_, fun h => ?_⟩
    · cases h
      exact .done
    · cases h
  | cons c cs ih =>
    obtain ⟨ihFrom, ihQuoted⟩ := ih
    refine ⟨fun {column ts} h => ?_, fun {start column body slash ts} h => ?_⟩
    · rcases char_cases c with hb | rfl | ⟨k, hk⟩ | hw
      · rw [scanFrom_blank hb] at h
        exact .blank hb (ihFrom h)
      · rw [scanFrom_quote] at h
        obtain ⟨b, q, rest, us, hcs, hb, rfl, hus⟩ := ihQuoted h
        rw [if_neg Bool.false_ne_true] at hcs
        rw [hcs]
        exact .quoted hb hus
      · rw [scanFrom_mark hk] at h
        obtain ⟨rest, hrest, rfl⟩ := map_eq_ok_iff.1 h
        exact .mark hk (ihFrom hrest)
      · rw [scanFrom_wordChar hw] at h
        obtain ⟨rest, hrest, rfl⟩ := map_eq_ok_iff.1 h
        exact spells_glue hw hrest (ihFrom hrest)
    · rw [scanQuoted] at h
      cases slash with
      | true =>
        rw [if_pos rfl] at h
        split at h
        · rename_i hc
          obtain ⟨b, q, rest, us, hcs, hb, rfl, hus⟩ := ihQuoted h
          rw [if_neg Bool.false_ne_true] at hcs
          exact ⟨'\\' :: c :: b, c :: q, rest, us, by simp [hcs], .escape hc hb, by simp, hus⟩
        · rename_i hc
          rw [not_or] at hc
          obtain ⟨b, q, rest, us, hcs, hb, rfl, hus⟩ := ihQuoted h
          rw [if_neg Bool.false_ne_true] at hcs
          refine ⟨'\\' :: c :: b, '\\' :: c :: q, rest, us, by simp [hcs], ?_, by simp, hus⟩
          exact .letter (by decide) (fun _ => ⟨c, b, rfl, hc⟩)
            (.letter hc.1 (fun e => absurd e hc.2) hb)
      | false =>
        rw [if_neg Bool.false_ne_true] at h
        rw [if_neg Bool.false_ne_true]
        split at h
        · rename_i hc
          obtain ⟨rest, hrest, rfl⟩ := map_eq_ok_iff.1 h
          exact ⟨[], [], cs, rest, by simp [hc], .done, by simp, ihFrom hrest⟩
        · rename_i hquote
          split at h
          · rename_i hc
            obtain ⟨b, q, rest, us, hcs, hrest⟩ := ihQuoted h
            exact ⟨b, q, rest, us, by rw [hc]; exact hcs, hrest⟩
          · rename_i hc
            obtain ⟨b, q, rest, us, hcs, hb, rfl, hus⟩ := ihQuoted h
            rw [if_neg Bool.false_ne_true] at hcs
            exact ⟨c :: b, c :: q, rest, us, by simp [hcs],
              .letter hquote (fun e => absurd e hc) hb, by simp, hus⟩

theorem spells_of_scan {line : String} {ts : List Token} (h : scan line = .ok ts) :
    Spells (ts.map Token.kind) line.toList :=
  (spells_scan line.toList).1 h

end Token

/-! ## The characters of a spelling -/

/-- The characters that a word or a quoted text is made of. -/
def TokenKind.chars : TokenKind → List Char
  | .word cs => cs
  | .quoted cs => cs
  | _ => []

namespace Token

theorem Body.subset {b q : List Char} (h : Body b q) : q ⊆ b := by
  induction h with
  | done => exact List.Subset.refl _
  | escape _ _ ih => exact List.subset_cons_of_subset _ (List.cons_subset_cons _ ih)
  | letter _ _ _ ih => exact List.cons_subset_cons _ ih

/-- Tokens have no characters but those of their spelling. -/
theorem Spells.chars_subset {ks : List TokenKind} {cs : List Char} (h : Spells ks cs) :
    ∀ k ∈ ks, k.chars ⊆ cs := by
  induction h with
  | done => simp
  | blank _ _ ih => exact fun k hk => List.subset_cons_of_subset _ (ih k hk)
  | mark hk _ ih =>
    refine List.forall_mem_cons.2 ⟨?_, fun k hk => List.subset_cons_of_subset _ (ih k hk)⟩
    rcases punctuation?_cases hk with ⟨-, rfl⟩ | ⟨-, rfl⟩ | ⟨-, rfl⟩ | ⟨-, rfl⟩ <;>
      exact List.nil_subset _
  | quoted hb _ ih =>
    refine List.forall_mem_cons.2 ⟨?_, fun k hk => ?_⟩
    · exact List.subset_cons_of_subset _ (List.subset_append_of_subset_left _ hb.subset)
    · exact List.subset_cons_of_subset _
        (List.subset_append_of_subset_right _ (List.subset_cons_of_subset _ (ih k hk)))
  | word _ _ _ _ ih =>
    refine List.forall_mem_cons.2 ⟨List.subset_append_left _ _, fun k hk => ?_⟩
    exact List.subset_append_of_subset_right _ (ih k hk)

end Token

end RitualGate
