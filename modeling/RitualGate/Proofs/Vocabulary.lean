import RitualGate.Proofs.Text
import RitualGate.Statement.Basic

/-!
# Words read back

Every word of the vocabulary reads as what it was written for: keywords, levels, intents, anchors,
personas, and the card references that a line can name (`CardRef.InRange`).
-/

namespace RitualGate

theorem Family.ofName?_name (f : Family) : Family.ofName? f.name = some f := by
  cases f <;> decide

theorem Verb.ofName?_name (v : Verb) : Verb.ofName? v.name = some v := by
  cases v <;> decide

theorem Family.name_of_ofName? {name : String} {f : Family} (h : Family.ofName? name = some f) :
    f.name = name := by
  simpa using List.find?_some h

theorem Verb.name_of_ofName? {name : String} {v : Verb} (h : Verb.ofName? name = some v) :
    v.name = name := by
  simpa using List.find?_some h

theorem Level.ofText_name (l : Level) : Level.ofText l.name = .ok l := by
  cases l <;> rfl

theorem Intent.ofText_name (i : Intent) : Intent.ofText i.name = .ok i := by
  cases i <;> rfl

theorem Anchor.ofText_text (a : Anchor) : Anchor.ofText a.text = .ok a := by
  rcases a with ⟨k, m⟩
  cases k <;> cases m <;> rfl

/-! ## Personas -/

namespace Persona

theorem ofText_token (p : Persona) : Persona.ofText p.token = .ok p := by
  unfold ofText
  rw [dif_pos p.isToken]

theorem token_chars (p : Persona) : ∃ name, p.token.toList = '@' :: name ∧ name ≠ [] ∧
    ∀ c ∈ name, isPersonaChar c = true := by
  have h := p.isToken
  unfold isPersonaToken at h
  split at h
  · rename_i name hname
    simp only [Bool.and_eq_true, Bool.not_eq_true', List.isEmpty_eq_false_iff,
      List.all_eq_true] at h
    exact ⟨name, hname, h.1, h.2⟩
  · cases h

theorem isWordChar_token (p : Persona) : ∀ c ∈ p.token.toList, Token.isWordChar c = true := by
  obtain ⟨name, hname, -, hall⟩ := p.token_chars
  rw [hname]
  intro c hc
  rcases List.mem_cons.1 hc with rfl | hc
  · decide
  · have h := hall c hc
    simp only [isPersonaChar, Bool.or_eq_true, beq_iff_eq] at h
    rcases h with (h | rfl) | rfl
    · exact Token.isWordChar_of_isAlphanumeric h
    · decide
    · decide

end Persona

/-! ## Card references -/

namespace CardRef

/-- The references that a line can name: an id is not empty, and a count is a machine word from one
on. -/
def InRange : CardRef → Prop
  | id text => text ≠ ""
  | latest n => 0 < n ∧ n ≤ Text.wordMax
  | topicRelevant => True
  | topRelevant k => 0 < k ∧ k ≤ Text.wordMax

theorem toList_latest (n : Nat) :
    (latest n).text.toList = "latest-".toList ++ Text.numeralChars n := by
  simp [text, Text.numeral]

theorem toList_topRelevant (k : Nat) :
    (topRelevant k).text.toList = "top-".toList ++ (Text.numeralChars k ++ "-relevant".toList) := by
  simp [text, Text.numeral]

theorem latestCount?_latest {n : Nat} (h : n ≤ Text.wordMax) :
    latestCount? (latest n).text.toList = some n := by
  rw [latestCount?, Text.stripHead?_eq_some_iff.2 (toList_latest n)]
  exact Text.readNumeral?_numeralChars h

theorem topCount?_topRelevant {k : Nat} (h : k ≤ Text.wordMax) :
    topCount? (topRelevant k).text.toList = some k := by
  rw [topCount?, Text.stripHead?_eq_some_iff.2 (toList_topRelevant k)]
  have htail := Text.stripTail?_eq_some_iff.2
    (rfl : Text.numeralChars k ++ "-relevant".toList = Text.numeralChars k ++ "-relevant".toList)
  simp only [Option.bind_eq_bind, Option.bind_some, htail]
  exact Text.readNumeral?_numeralChars h

theorem latestCount?_topRelevant (k : Nat) : latestCount? (topRelevant k).text.toList = none := by
  have : Text.stripHead? "latest-".toList (topRelevant k).text.toList = none := by
    simp [toList_topRelevant, Text.stripHead?]
  rw [latestCount?, this]
  rfl

/-- A text differs from another if it starts with a character at which the other differs. -/
theorem ne_of_head? {s t : String} (h : s.toList.head? ≠ t.toList.head?) : s ≠ t :=
  fun e => h (e ▸ rfl)

theorem ofUnmarked_latest {n : Nat} (h : (latest n).InRange) :
    ofUnmarked (latest n).text = .ok (latest n) := by
  have hne : (latest n).text ≠ "" := ne_of_head? (by simp [toList_latest])
  have htopic : (latest n).text ≠ "topic-relevant" := ne_of_head? (by simp [toList_latest])
  unfold ofUnmarked
  rw [if_neg hne, if_neg htopic, latestCount?_latest h.2]
  obtain ⟨m, rfl⟩ := Nat.exists_eq_add_of_lt h.1
  simp

theorem ofUnmarked_topRelevant {k : Nat} (h : (topRelevant k).InRange) :
    ofUnmarked (topRelevant k).text = .ok (topRelevant k) := by
  have hne : (topRelevant k).text ≠ "" := ne_of_head? (by simp [toList_topRelevant])
  have htopic : (topRelevant k).text ≠ "topic-relevant" := by
    intro e
    have := congrArg String.toList e
    simp [toList_topRelevant] at this
  unfold ofUnmarked
  rw [if_neg hne, if_neg htopic, latestCount?_topRelevant, topCount?_topRelevant h.2]
  obtain ⟨m, rfl⟩ := Nat.exists_eq_add_of_lt h.1
  simp

theorem stripMark_token (c : CardRef) : stripMark c.token = c.text := by
  have : Text.stripHead? "card:".toList c.token.toList = some c.text.toList := by
    simp [Text.stripHead?_eq_some_iff, token]
  rw [stripMark, this]
  simp

theorem ofWord_token (c : CardRef) : ofWord c.token = ofUnmarked c.text := by
  rw [ofWord, stripMark_token]

/-- A word that reads as an id reads as itself. -/
theorem eq_of_ofUnmarked {word text : String} (h : ofUnmarked word = .ok (id text)) :
    text = word := by
  unfold ofUnmarked at h
  repeat' split at h
  all_goals cases h
  rfl

/-- A word that reads as the id that it spells does so behind a mark, too. -/
theorem ofUnmarked_of_readsAsId {text : String} (h : readsAsId text = true) :
    ofUnmarked text = .ok (id text) := by
  unfold readsAsId at h
  split at h
  · rename_i t ht
    obtain rfl := of_decide_eq_true h
    rw [ofWord] at ht
    rwa [← eq_of_ofUnmarked ht] at ht
  · cases h

/-- The id that a word reads as is what stands behind the mark. -/
theorem subset_of_ofWord {word text : String} (h : ofWord word = .ok (id text)) :
    text.toList ⊆ word.toList := by
  rw [ofWord] at h
  rw [eq_of_ofUnmarked h, stripMark]
  split
  · rename_i rest hrest
    rw [Text.stripHead?_eq_some_iff.1 hrest, String.toList_ofList]
    exact List.subset_append_right _ _
  · exact List.Subset.refl _

/-! ### What a line can name -/

theorem le_of_readDigits? {limit n : Nat} {l : List Char} (h : Text.readDigits? limit l = some n) :
    n ≤ limit := by
  unfold Text.readDigits? at h
  split at h
  · cases h
  · simp only at h
    split at h
    · cases h
      assumption
    · cases h

theorem le_of_readNumeral? {limit n : Nat} {l : List Char} (h : Text.readNumeral? limit l = some n) :
    n ≤ limit := by
  unfold Text.readNumeral? at h
  split at h <;> exact le_of_readDigits? h

theorem inRange_of_ofUnmarked {word : String} {c : CardRef} (h : ofUnmarked word = .ok c) :
    c.InRange := by
  unfold ofUnmarked at h
  split at h
  · cases h
  · rename_i hne
    split at h
    · cases h
      trivial
    · split at h
      · cases h
      · rename_i n hn hcount
        cases h
        simp only [latestCount?, Option.bind_eq_bind, Option.bind_eq_some_iff] at hcount
        obtain ⟨rest, -, hread⟩ := hcount
        exact ⟨Nat.pos_of_ne_zero fun h0 => hn (h0 ▸ rfl), le_of_readNumeral? hread⟩
      · split at h
        · cases h
        · rename_i k hk hcount
          cases h
          simp only [topCount?, Option.bind_eq_bind, Option.bind_eq_some_iff] at hcount
          obtain ⟨rest, -, hread⟩ := hcount
          exact ⟨Nat.pos_of_ne_zero fun h0 => hk (h0 ▸ rfl), le_of_readNumeral? hread⟩
        · cases h
          exact hne

theorem inRange_of_ofQuoted {text : String} {c : CardRef} (h : ofQuoted text = .ok c) :
    c.InRange := by
  unfold ofQuoted at h
  split at h
  · cases h
  · cases h
    assumption

end CardRef

end RitualGate
