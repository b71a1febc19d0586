import RitualGate.Proofs.Spelling

/-!
# The layout of a line

`Laid column ts cs` says where the tokens `ts` stand in the characters `cs`, of which the first has
the column `column`: blanks, a token at its column, blanks, the next token, and so on, with at least
one blank between two words. A scan finds exactly what is laid out (`scanFrom_eq_ok_iff`), with
columns that increase from token to token (`Laid.increasing`) and at which the tokens start
(`Laid.starts`). The only text that is no layout of tokens is one in which a quote is opened behind
a layout and never closed (`exists_unclosed_of_scanFrom`).
-/

namespace RitualGate

/-- Words are the tokens that need something between them. -/
def TokenKind.IsWord (k : TokenKind) : Prop :=
  ∃ w, k = .word w

namespace Token

/-! ## Texts of tokens -/

/-- A run of blanks, perhaps of none. -/
def Blanks (cs : List Char) : Prop :=
  ∀ c ∈ cs, Text.isBlank c = true

/-- `Lexeme k cs`: a token of the kind `k` can be written as `cs`. -/
inductive Lexeme : TokenKind → List Char → Prop
  | mark {k : TokenKind} {c : Char} (hk : punctuation? c = some k) : Lexeme k [c]
  | quoted {b q : List Char} (hb : Body b q) : Lexeme (.quoted q) ('"' :: (b ++ ['"']))
  | word {w : List Char} (hne : w ≠ []) (hw : ∀ c ∈ w, isWordChar c = true) : Lexeme (.word w) w

/-- `Laid column ts cs`: the characters `cs`, which begin at a column, consist of blanks and of the
tokens `ts`, each at its own column and two words never next to each other. -/
inductive Laid : Nat → List Token → List Char → Prop
  | blanks {column : Nat} {gap : List Char} (hgap : Blanks gap) : Laid column [] gap
  | token {column : Nat} {gap text rest : List Char} {t : Token} {ts : List Token}
      (hgap : Blanks gap) (hcolumn : t.column = column + gap.length)
      (htext : Lexeme t.kind text)
      (hapart : t.kind.IsWord → (∃ u ∈ ts.head?, u.kind.IsWord) →
        ∃ c ∈ rest.head?, Text.isBlank c = true)
      (h : Laid (t.column + text.length) ts rest) : Laid column (t :: ts) (gap ++ (text ++ rest))

theorem Lexeme.ne_nil {k : TokenKind} {text : List Char} (h : Lexeme k text) : text ≠ [] := by
  cases h with
  | mark => exact List.cons_ne_nil _ _
  | quoted => exact List.cons_ne_nil _ _
  | word hne => exact hne

/-- What starts with a word character is the text of a word. -/
theorem Lexeme.isWord {k : TokenKind} {text : List Char} (h : Lexeme k text) {c : Char}
    (hc : c ∈ text.head?) (hword : isWordChar c = true) : k.IsWord := by
  cases h with
  | mark hk =>
    cases hc
    exact absurd (isWordChar_iff.1 hword).2.2 (by simp [hk])
  | quoted hb =>
    cases hc
    exact absurd hword (by decide)
  | word => exact ⟨_, rfl⟩

theorem not_isWordChar_of_isBlank {c : Char} (h : Text.isBlank c = true) :
    isWordChar c = false := by
  simp [isWordChar, h]

/-- The text of a word starts with a word character. -/
theorem Lexeme.head {w text : List Char} (h : Lexeme (.word w) text) :
    ∃ c ∈ text.head?, isWordChar c = true := by
  cases h with
  | mark hk => exact absurd rfl (punctuation?_ne_word hk w)
  | word hne hw =>
    obtain ⟨c, w, rfl⟩ := List.exists_cons_of_ne_nil hne
    exact ⟨c, rfl, hw c List.mem_cons_self⟩

/-- No word goes on at the start of a layout exactly if its first token, should that be a word, has
a blank before it. -/
theorem Laid.separated_iff {column : Nat} {ts : List Token} {cs : List Char}
    (h : Laid column ts cs) : Separated cs ↔
      ((∃ u ∈ ts.head?, u.kind.IsWord) → ∃ c ∈ cs.head?, Text.isBlank c = true) := by
  cases h with
  | blanks hgap =>
    refine ⟨fun _ ⟨_, hu, _⟩ => absurd hu (by simp), fun _ c hc => ?_⟩
    exact not_isWordChar_of_isBlank (hgap c (List.mem_of_mem_head? hc))
  | @token _ gap text rest t ts hgap _ htext =>
    cases gap with
    | cons d gap =>
      have hd : Text.isBlank d = true := hgap d List.mem_cons_self
      refine ⟨fun _ _ => ⟨d, rfl, hd⟩, fun _ c hc => ?_⟩
      cases hc
      exact not_isWordChar_of_isBlank hd
    | nil =>
      have hhead : (text ++ rest).head? = text.head? := by
        obtain ⟨c, text, rfl⟩ := List.exists_cons_of_ne_nil htext.ne_nil
        rfl
      rw [List.nil_append, Separated, hhead]
      constructor
      · rintro hs ⟨u, hu, w, hw⟩
        cases hu
        obtain ⟨c, hc, hword⟩ := (hw ▸ htext).head
        exact absurd hword (by simp [hs c hc])
      · intro hapart c hc
        cases hword : isWordChar c with
        | false => rfl
        | true =>
          obtain ⟨d, hd, hblank⟩ := hapart ⟨t, rfl, htext.isWord hc hword⟩
          cases hc.symm.trans hd
          rw [← hword, not_isWordChar_of_isBlank hblank]

/-! ## Scanning a layout -/

theorem scanFrom_blanks {gap : List Char} (hgap : Blanks gap) (column : Nat) (cs : List Char) :
    scanFrom column (gap ++ cs) = scanFrom (column + gap.length) cs := by
  induction gap generalizing column with
  | nil => rfl
  | cons c gap ih =>
    obtain ⟨hc, hgap⟩ := List.forall_mem_cons.1 hgap
    rw [List.cons_append, scanFrom_blank hc, ih hgap, List.length_cons, Nat.add_assoc,
      Nat.add_comm 1]

/-- Scanning a layout finds its tokens. -/
theorem Laid.scanFrom {column : Nat} {ts : List Token} {cs : List Char} (h : Laid column ts cs) :
    scanFrom column cs = .ok ts := by
  induction h with
  | @blanks column gap hgap =>
    rw [← List.append_nil gap, scanFrom_blanks hgap, Token.scanFrom]
  | @token column gap text rest t ts hgap hcolumn htext hapart h ih =>
    obtain ⟨k, start⟩ := t
    obtain rfl : start = column + gap.length := hcolumn
    rw [scanFrom_blanks hgap]
    cases htext with
    | mark hk =>
      rw [List.singleton_append, scanFrom_mark hk, ← List.length_singleton, ih]
      rfl
    | @quoted b q hb =>
      have hlength : column + gap.length + ('"' :: (b ++ ['"'])).length =
          column + gap.length + 1 + b.length + 1 := by
        simp only [List.length_cons, List.length_append, List.length_nil]
        omega
      rw [hlength] at ih
      rw [List.cons_append, List.append_assoc, List.singleton_append, scanFrom_quote,
        scanQuoted_body hb, ih]
      rfl
    | word hne hw => exact scanFrom_word hne hw (h.separated_iff.2 (hapart ⟨_, rfl⟩)) ih

/-! ## The layout of what was scanned -/

theorem Laid.cons_blank {column : Nat} {ts : List Token} {c : Char} {cs : List Char}
    (hc : Text.isBlank c = true) (h : Laid (column + 1) ts cs) : Laid column ts (c :: cs) := by
  cases h with
  | blanks hgap => exact .blanks (List.forall_mem_cons.2 ⟨hc, hgap⟩)
  | @token _ gap text rest t ts hgap hcolumn htext hapart h =>
    have hcolumn : t.column = column + (c :: gap).length := by
      rw [hcolumn, List.length_cons]
      omega
    rw [← List.cons_append]
    exact .token (List.forall_mem_cons.2 ⟨hc, hgap⟩) hcolumn htext hapart h

/-- A spelling is a layout of tokens of the kinds that it spells. -/
theorem Spells.laid {ks : List TokenKind} {cs : List Char} (h : Spells ks cs) (column : Nat) :
    ∃ ts, ts.map Token.kind = ks ∧ Laid column ts cs := by
  induction h generalizing column with
  | done => exact ⟨[], rfl, .blanks nofun⟩
  | blank hc _ ih =>
    obtain ⟨ts, hts, hlaid⟩ := ih (column + 1)
    exact ⟨ts, hts, hlaid.cons_blank hc⟩
  | @mark k _ c cs hk _ ih =>
    obtain ⟨ts, rfl, hlaid⟩ := ih (column + 1)
    have hline : c :: cs = [] ++ ([c] ++ cs) := rfl
    rw [hline]
    refine ⟨⟨k, column⟩ :: ts, rfl, .token nofun rfl (.mark hk) ?_ hlaid⟩
    rintro ⟨w, hw⟩
    exact absurd hw (punctuation?_ne_word hk w)
  | @quoted b q _ cs hb _ ih =>
    obtain ⟨ts, rfl, hlaid⟩ := ih (column + ('"' :: (b ++ ['"'])).length)
    have hline : '"' :: (b ++ '"' :: cs) = [] ++ (('"' :: (b ++ ['"'])) ++ cs) := by simp
    rw [hline]
    exact ⟨⟨.quoted q, column⟩ :: ts, rfl, .token nofun rfl (.quoted hb) nofun hlaid⟩
  | @word w _ cs hne hw hs _ ih =>
    obtain ⟨ts, rfl, hlaid⟩ := ih (column + w.length)
    rw [← List.nil_append (w ++ cs)]
    exact ⟨⟨.word w, column⟩ :: ts, rfl, .token nofun rfl (.word hne hw)
      (fun _ => hlaid.separated_iff.1 hs) hlaid⟩

/-- A scan finds exactly what is laid out. -/
theorem scanFrom_eq_ok_iff {column : Nat} {cs : List Char} {ts : List Token} :
    scanFrom column cs = .ok ts ↔ Laid column ts cs := by
  refine ⟨fun h => ?_, Laid.scanFrom⟩
  obtain ⟨us, -, hlaid⟩ := ((spells_scan cs).1 h).laid column
  cases hlaid.scanFrom.symm.trans h
  exact hlaid

/-! ## Columns -/

/-- Every token starts at its column. -/
theorem Laid.starts {column : Nat} {ts : List Token} {cs : List Char} (h : Laid column ts cs) :
    ∀ t ∈ ts, ∃ before text behind, cs = before ++ (text ++ behind) ∧ Lexeme t.kind text ∧
      t.column = column + before.length := by
  induction h with
  | blanks => exact List.forall_mem_nil _
  | @token column gap text rest t ts hgap hcolumn htext hapart _ ih =>
    refine List.forall_mem_cons.2 ⟨⟨gap, text, rest, rfl, htext, hcolumn⟩, fun u hu => ?_⟩
    obtain ⟨before, text', behind, rfl, htext', hu⟩ := ih u hu
    refine ⟨gap ++ (text ++ before), text', behind, by simp, htext', ?_⟩
    rw [hu, hcolumn, List.length_append, List.length_append]
    omega

/-- Columns increase from token to token. -/
theorem Laid.increasing {column : Nat} {ts : List Token} {cs : List Char}
    (h : Laid column ts cs) : (ts.map Token.column).Pairwise (· < ·) := by
  induction h with
  | blanks => exact .nil
  | @token column gap text rest t ts hgap hcolumn htext hapart h ih =>
    refine List.Pairwise.cons (fun column' hcolumn' => ?_) ih
    obtain ⟨u, hu, rfl⟩ := List.mem_map.1 hcolumn'
    obtain ⟨before, -, -, -, -, hu⟩ := h.starts u hu
    have hpos : 0 < text.length := List.length_pos_iff.2 htext.ne_nil
    omega

/-! ## Quotes that are not closed -/

/-- The error of a quote that opens at a column. -/
def unterminated (column : Nat) : SyntaxError :=
  { fault := .unterminatedQuote, token := "\"", column }

/-- A quote that opens right before some characters is not closed in them. -/
def Unclosed (cs : List Char) : Prop :=
  ∀ b q behind, Body b q → cs ≠ b ++ '"' :: behind

theorem scanQuoted_unclosed {cs : List Char} (start column : Nat) (body : List Char) (slash : Bool)
    (h : Unclosed (if slash then '\\' :: cs else cs)) :
    scanQuoted start column body slash cs = .error (unterminated start) := by
  induction cs generalizing column body slash with
  | nil => rfl
  | cons c cs ih =>
    -- what closes the quote behind `c` would close it before `c` as well
    rw [scanQuoted]
    cases slash with
    | true =>
      rw [if_pos rfl] at h ⊢
      split
      · rename_i hc
        refine ih _ _ _ fun b q behind hb hcs => ?_
        exact h ('\\' :: c :: b) (c :: q) behind (.escape hc hb) (by simp_all)
      · rename_i hc
        rw [not_or] at hc
        refine ih _ _ _ fun b q behind hb hcs => ?_
        refine h ('\\' :: c :: b) ('\\' :: c :: q) behind ?_ (by simp_all)
        exact .letter (by decide) (fun _ => ⟨c, b, rfl, hc⟩)
          (.letter hc.1 (fun e => absurd e hc.2) hb)
    | false =>
      rw [if_neg Bool.false_ne_true] at h ⊢
      split
      · rename_i hc
        exact absurd (by simp [hc]) (h [] [] cs .done)
      · rename_i hquote
        split
        · rename_i hc
          exact ih _ _ true (hc ▸ h)
        · rename_i hc
          refine ih _ _ _ fun b q behind hb hcs => ?_
          exact h (c :: b) (c :: q) behind (.letter hquote (fun e => absurd e hc) hb) (by simp_all)

theorem map_eq_error_iff {ε α β : Type} {x : Except ε α} {f : α → β} {e : ε} :
    f <$> x = .error e ↔ x = .error e := by
  cases x with
  | error e' => exact ⟨fun h => by cases h; rfl, fun h => by cases h; rfl⟩
  | ok a => exact ⟨nofun, nofun⟩

/-- A scan fails only at a quote that opens behind a layout of tokens and is not closed. -/
theorem exists_unclosed_of_scanFrom {column : Nat} {cs : List Char} {e : SyntaxError}
    (h : scanFrom column cs = .error e) :
    ∃ ts before rest, cs = before ++ '"' :: rest ∧ scanFrom column before = .ok ts ∧
      Unclosed rest ∧ e = unterminated (column + before.length) := by
  -- a quoted text is passed in one step, so the induction is on the length
  induction hn : cs.length using Nat.strongRecOn generalizing column cs with
  | ind n ih =>
    cases cs with
    | nil =>
      rw [scanFrom] at h
      cases h
    | cons c cs =>
      have skip (hrest : scanFrom (column + 1) cs = .error e)
          (hfront : ∀ before ts, scanFrom (column + 1) before = .ok ts →
            ∃ us, scanFrom column (c :: before) = .ok us) :
          ∃ ts before rest, c :: cs = before ++ '"' :: rest ∧ scanFrom column before = .ok ts ∧
            Unclosed rest ∧ e = unterminated (column + before.length) := by
        obtain ⟨ts, before, rest, rfl, hts, hopen, rfl⟩ := ih cs.length (by simp [← hn]) hrest rfl
        obtain ⟨us, hus⟩ := hfront before ts hts
        refine ⟨us, c :: before, rest, rfl, hus, hopen, ?_⟩
        rw [List.length_cons, Nat.add_assoc, Nat.add_comm 1]
      rcases char_cases c with hb | rfl | ⟨k, hk⟩ | hw
      · rw [scanFrom_blank hb] at h
        exact skip h fun before ts hts => ⟨ts, by rw [scanFrom_blank hb, hts]⟩
      · rw [scanFrom_quote] at h
        by_cases hclosed : ∃ b q behind, Body b q ∧ cs = b ++ '"' :: behind
        · obtain ⟨b, q, behind, hb, rfl⟩ := hclosed
          rw [scanQuoted_body hb, map_eq_error_iff] at h
          obtain ⟨ts, before, rest, rfl, hts, hrest, rfl⟩ :=
            ih behind.length (by simp [← hn]; omega) h rfl
          refine ⟨⟨.quoted q, column⟩ :: ts, '"' :: (b ++ '"' :: before), rest, by simp, ?_, hrest,
            ?_⟩
          · rw [scanFrom_quote, scanQuoted_body hb, hts]
            rfl
          · congr 1
            simp only [List.length_cons, List.length_append]
            omega
        · have hunclosed : Unclosed cs := fun b q behind hb hcs => hclosed ⟨b, q, behind, hb, hcs⟩
          rw [scanQuoted_unclosed column (column + 1) [] false hunclosed] at h
          cases h
          exact ⟨[], [], cs, rfl, by rw [scanFrom], hunclosed, rfl⟩
      · rw [scanFrom_mark hk, map_eq_error_iff] at h
        exact skip h fun before ts hts => ⟨_, by rw [scanFrom_mark hk, hts]; rfl⟩
      · rw [scanFrom_wordChar hw, map_eq_error_iff] at h
        exact skip h fun before ts hts => ⟨_, by rw [scanFrom_wordChar hw, hts]; rfl⟩

end Token

end RitualGate
