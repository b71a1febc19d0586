import Mathlib.Logic.Basic
import RitualGate.Proofs.WellFormed
import RitualGate.Statement.Canonical

/-!
# The tokens of the canonical text

The canonical text of a well-formed statement spells certain tokens (`spells_canonical`): a word for
the keyword, a quoted subject, a token for each card reference and up to two for each pair of
`writtenPairs`, the pairs that the keyword and the subject do not say anyway.
-/

namespace RitualGate

open Token (Spells Separated Body)

namespace Statement

/-! ## The tokens of the canonical text -/

/-- `Writes ks cs`: the characters `cs` write down tokens of the kinds `ks`, whatever follows that
no word goes on in. -/
def Writes (ks : List TokenKind) (cs : List Char) : Prop :=
  ∀ ks' rest, Separated rest → Spells ks' rest → Spells (ks ++ ks') (cs ++ rest)

theorem separated_nil : Separated [] := by
  intro c hc
  cases hc

theorem separated_cons {c : Char} (h : Token.isWordChar c = false) (cs : List Char) :
    Separated (c :: cs) := by
  intro d hd
  cases hd
  exact h

theorem body_quote (cs : List Char) :
    Body (cs.flatMap fun c => if c = '"' ∨ c = '\\' then ['\\', c] else [c]) cs := by
  induction cs with
  | nil => exact .done
  | cons c cs ih =>
    rw [List.flatMap_cons]
    by_cases h : c = '"' ∨ c = '\\'
    · rw [if_pos h]
      exact .escape h ih
    · rw [if_neg h]
      rw [not_or] at h
      exact .letter h.1 (fun e => absurd e h.2) ih

theorem spells_quote (cs : List Char) {ks : List TokenKind} {rest : List Char}
    (h : Spells ks rest) : Spells (.quoted cs :: ks) (quote cs ++ rest) := by
  have := Spells.quoted (body_quote cs) h
  simpa [quote] using this

theorem writes_quote (cs : List Char) : Writes [.quoted cs] (quote cs) :=
  fun _ _ _ h => spells_quote cs h

theorem writes_word {w : List Char} (hne : w ≠ []) (hw : ∀ c ∈ w, Token.isWordChar c = true) :
    Writes [.word w] w :=
  fun _ _ hs h => .word hne hw hs h

theorem isPlain_iff {cs : List Char} :
    isPlain cs = true ↔ cs ≠ [] ∧ ∀ c ∈ cs, Token.isWordChar c = true := by
  simp [isPlain]

/-- Pieces with commas between them. -/
theorem writes_intercalate {α : Type} {kinds : α → List TokenKind} {chars : α → List Char} :
    ∀ {l : List α}, (∀ a ∈ l, Writes (kinds a) (chars a)) →
      Writes ([TokenKind.comma].intercalate (l.map kinds)) (", ".toList.intercalate (l.map chars))
  | [], _ => fun _ _ _ h => by simpa using h
  | [a], hl => fun ks' rest hs h => by simpa using hl a List.mem_cons_self ks' rest hs h
  | a :: b :: l, hl => fun ks' rest hs h => by
    obtain ⟨ha, hl⟩ := List.forall_mem_cons.1 hl
    have tail := writes_intercalate hl ks' rest hs h
    have comma := Spells.mark (c := ',') (k := .comma) rfl (.blank (c := ' ') (by decide) tail)
    have := ha _ _ (separated_cons (by decide) _) comma
    simpa [List.intercalate_cons_cons] using this

/-- The token of a card reference. -/
def cardKind : CardRef → TokenKind
  | .id text =>
    if isPlain text.toList && CardRef.readsAsId text then .word (CardRef.id text).token.toList
    else .quoted text.toList
  | c => .word c.token.toList

theorem isWordChar_numeral (n : Nat) : ∀ c ∈ Text.numeralChars n, Token.isWordChar c = true := by
  intro c hc
  have hd : c.isDigit = true := Nat.isDigit_of_mem_toDigits (by decide) (by decide) hc
  have ha : c.isAlphanum = true := by simp [Char.isAlphanum, hd]
  refine Token.isWordChar_of_isAlphanumeric ?_
  have hlt : c.toNat < 0x80 := by
    simp only [Char.isDigit, Bool.and_eq_true, decide_eq_true_eq, UInt32.le_iff_toNat_le] at hd
    have : c.val.toNat = c.toNat := rfl
    have : '9'.val.toNat = 57 := rfl
    omega
  simp [Text.isAlphanumeric, hlt, ha]

theorem isWordChar_cardToken {c : CardRef} (hw : ∀ d ∈ c.text.toList, Token.isWordChar d = true) :
    ∀ d ∈ c.token.toList, Token.isWordChar d = true := by
  intro d hd
  have hmark : ∀ d ∈ "card:".toList, Token.isWordChar d = true :=
    List.all_eq_true.1 (by decide)
  rw [CardRef.token, String.toList_append] at hd
  rcases List.mem_append.1 hd with hd | hd
  · exact hmark d hd
  · exact hw d hd

theorem writes_token {c : CardRef} (hw : ∀ d ∈ c.text.toList, Token.isWordChar d = true) :
    Writes [.word c.token.toList] c.token.toList :=
  writes_word (by simp [CardRef.token]) (isWordChar_cardToken hw)

/-- What is no id is written in word characters. -/
theorem isWordChar_selector {c : CardRef} (h : ∀ text, c ≠ .id text) :
    ∀ d ∈ c.text.toList, Token.isWordChar d = true := by
  cases c with
  | id text => exact absurd rfl (h text)
  | latest n =>
    intro d hd
    have hmark : ∀ d ∈ "latest-".toList, Token.isWordChar d = true :=
      List.all_eq_true.1 (by decide)
    rw [CardRef.toList_latest] at hd
    rcases List.mem_append.1 hd with hd | hd
    · exact hmark d hd
    · exact isWordChar_numeral n d hd
  | topicRelevant => exact List.all_eq_true.1 (by decide)
  | topRelevant k =>
    intro d hd
    have hhead : ∀ d ∈ "top-".toList, Token.isWordChar d = true :=
      List.all_eq_true.1 (by decide)
    have htail : ∀ d ∈ "-relevant".toList, Token.isWordChar d = true :=
      List.all_eq_true.1 (by decide)
    rw [CardRef.toList_topRelevant] at hd
    rcases List.mem_append.1 hd with hd | hd
    · exact hhead d hd
    · rcases List.mem_append.1 hd with hd | hd
      · exact isWordChar_numeral k d hd
      · exact htail d hd

theorem writes_card (c : CardRef) : Writes [cardKind c] (cardChars c) := by
  cases c with
  | id text =>
    simp only [cardKind, cardChars]
    split
    · rename_i h
      rw [Bool.and_eq_true, isPlain_iff] at h
      exact writes_token h.1.2
    · exact writes_quote _
  | _ => exact writes_token (isWordChar_selector (by simp))

/-- The tokens of a pair. -/
def pairKinds (e : String × String) : List TokenKind :=
  if e.2 = "true" then [.word e.1.toList]
  else if isPlain e.2.toList then [.word (e.1.toList ++ ':' :: e.2.toList)]
  else [.word (e.1.toList ++ [':']), .quoted e.2.toList]

/-- A pair as it is written. -/
def pairText (e : String × String) : List Char :=
  if e.2 = "true" then e.1.toList else e.1.toList ++ ':' :: valueChars e.2

theorem writes_pair {e : String × String} (h : IsKey e.1) : Writes (pairKinds e) (pairText e) := by
  obtain ⟨hne, hkey⟩ := h
  have hkey : ∀ c ∈ e.1.toList, Token.isWordChar c = true := fun c hc => (hkey c hc).1
  have hne : e.1.toList ≠ [] := by simpa using hne
  unfold pairKinds pairText valueChars
  split
  · exact writes_word hne hkey
  · split
    · rename_i hplain
      refine writes_word (by simp) fun c hc => ?_
      rcases List.mem_append.1 hc with hc | hc
      · exact hkey c hc
      · rcases List.mem_cons.1 hc with rfl | hc
        · decide
        · exact (isPlain_iff.1 hplain).2 c hc
    · intro ks' rest hs h
      have word := Spells.word (w := e.1.toList ++ [':']) (by simp) (fun c hc => by
        rcases List.mem_append.1 hc with hc | hc
        · exact hkey c hc
        · obtain rfl := List.mem_singleton.1 hc
          decide) (separated_cons (by decide) _) (spells_quote e.2.toList h)
      simpa [quote] using word

/-- The anchor that the subject of an anchor statement names. -/
def subjectAnchor (s : Statement) : Option Anchor :=
  if s.family = .anchor then (Anchor.ofText s.subject).toOption else none

/-- The voice, where the subject does not say it. -/
def writtenVoice (s : Statement) : Option Persona :=
  if s.family = .voice ∧ s.verb = .use then none else s.voice

/-- The level, where the subject does not say it. -/
def writtenLevel (s : Statement) : Option Level :=
  if s.family = .bandwidth ∧ s.verb = .set then none else s.bandwidth

/-- The anchors, except the one that the subject says. -/
def writtenAnchors (s : Statement) : List Anchor :=
  s.anchors.toList.filter fun a => decide (some a ≠ s.subjectAnchor)

/-- The intent, where the subject does not call for it. -/
def writtenIntent (s : Statement) : Option Intent :=
  if s.intent = Intent.default s.family s.subject then none else s.intent

/-- The keys and values of the pairs in the canonical text. -/
def writtenPairs (s : Statement) : List (String × String) :=
  (s.writtenVoice.toList.map fun p => ("voice", p.token)) ++
    (s.writtenLevel.toList.map fun l => ("bandwidth", l.name)) ++
    (s.writtenAnchors.map fun a => ("anchor", a.text)) ++
    (s.writtenIntent.toList.map fun i => ("intent", i.name)) ++
    s.args.entries

theorem pairText_word {key value : String} (h : ∀ c ∈ value.toList, Token.isWordChar c = true)
    (hne : value ≠ "") (ht : value ≠ "true") :
    pairText (key, value) = key.toList ++ ':' :: value.toList := by
  have hp : isPlain value.toList = true := isPlain_iff.2 ⟨by simpa using hne, h⟩
  simp [pairText, ht, valueChars, hp]

theorem pairText_voice (p : Persona) :
    pairText ("voice", p.token) = "voice:".toList ++ p.token.toList := by
  obtain ⟨name, hname, -, -⟩ := p.token_chars
  rw [pairText_word p.isWordChar_token]
  · rfl
  · exact CardRef.ne_of_head? (by simp [hname])
  · exact CardRef.ne_of_head? (by simp [hname])

theorem pairText_level (l : Level) :
    pairText ("bandwidth", l.name) = "bandwidth:".toList ++ l.name.toList := by
  cases l <;> rfl

theorem pairText_anchor (a : Anchor) :
    pairText ("anchor", a.text) = "anchor:".toList ++ a.text.toList := by
  rcases a with ⟨k, m⟩
  cases k <;> cases m <;> rfl

theorem pairText_intent (i : Intent) :
    pairText ("intent", i.name) = "intent:".toList ++ i.name.toList := by
  cases i <;> rfl

/-- The pairs of the canonical text are those of `writtenPairs`. -/
theorem pairChars_eq (s : Statement) : s.pairChars = s.writtenPairs.map pairText := by
  simp only [pairChars, writtenPairs, List.map_append]
  refine congrArg₂ _ (congrArg₂ _ (congrArg₂ _ (congrArg₂ _ ?voice ?level) ?anchors) ?intent) rfl
  case voice =>
    cases hv : s.voice with
    | none => simp [writtenVoice, hv]
    | some p =>
      by_cases hs : s.family = .voice ∧ s.verb = .use <;>
        simp [writtenVoice, hv, hs, pairText_voice]
  case level =>
    cases hl : s.bandwidth with
    | none => simp [writtenLevel, hl]
    | some l =>
      by_cases hs : s.family = .bandwidth ∧ s.verb = .set <;>
        simp [writtenLevel, hl, hs, pairText_level]
  case anchors =>
    rw [List.map_map]
    exact List.map_congr_left fun a _ => (pairText_anchor a).symm
  case intent =>
    cases hi : s.intent with
    | none => simp [writtenIntent, hi]
    | some i =>
      by_cases hs : some i = Intent.default s.family s.subject <;>
        simp [writtenIntent, hi, hs, pairText_intent]

theorem isKey_writtenPairs {s : Statement} (h : s.WellFormed) :
    ∀ e ∈ s.writtenPairs, IsKey e.1 := by
  have key (k : String) (hne : k ≠ "")
      (hall : (k.toList.all fun c => Token.isWordChar c && decide (c ≠ ':')) = true) : IsKey k := by
    refine ⟨hne, fun c hc => ?_⟩
    simpa only [Bool.and_eq_true, decide_eq_true_eq] using List.all_eq_true.1 hall c hc
  intro e he
  simp only [writtenPairs, List.mem_append, List.mem_map] at he
  rcases he with (((⟨-, -, rfl⟩ | ⟨-, -, rfl⟩) | ⟨-, -, rfl⟩) | ⟨-, -, rfl⟩) | he
  · exact key "voice" (by decide) (by decide)
  · exact key "bandwidth" (by decide) (by decide)
  · exact key "anchor" (by decide) (by decide)
  · exact key "intent" (by decide) (by decide)
  · exact (h.keys e he).1

/-- The tokens of a list of card references. -/
def cardsKinds (cards : List CardRef) : List TokenKind :=
  [TokenKind.comma].intercalate (cards.map fun c => [cardKind c])

/-- The tokens of a list of pairs. -/
def pairsKinds (pairs : List (String × String)) : List TokenKind :=
  [TokenKind.comma].intercalate (pairs.map pairKinds)

/-- The tokens of the subject, if there is one. -/
def subjectPart (s : Statement) : List TokenKind :=
  if s.subject = "" then [] else [.quoted s.subject.toList]

/-- The tokens of the card references, if there are any. -/
def cardsPart (s : Statement) : List TokenKind :=
  if s.cards = [] then [] else .openBracket :: (cardsKinds s.cards ++ [.closeBracket])

/-- The tokens of the pairs, if there are any. -/
def pairsPart (s : Statement) : List TokenKind :=
  if s.writtenPairs = [] then [] else .pipe :: pairsKinds s.writtenPairs

/-- The tokens of the canonical text. -/
def canonicalKinds (s : Statement) : List TokenKind :=
  .word s.keyword.toList :: (s.subjectPart ++ (s.cardsPart ++ s.pairsPart))

theorem isWordChar_keyword (f : Family) (v : Verb) :
    ∀ c ∈ (RitualGate.keyword f v).toList, Token.isWordChar c = true := by
  have hf : ∀ c ∈ f.name.toList, Token.isWordChar c = true := by
    rw [← List.all_eq_true]
    cases f <;> decide
  have hv : ∀ c ∈ v.name.toList, Token.isWordChar c = true := by
    rw [← List.all_eq_true]
    cases v <;> decide
  simp only [RitualGate.keyword, String.toList_append, List.mem_append]
  rintro c ((hc | hc) | hc)
  · exact hf c hc
  · obtain rfl : c = '.' := by simpa using hc
    decide
  · exact hv c hc

/-- `Opens ks cs`: the characters `cs` write down tokens of the kinds `ks` behind a word, whatever
follows that could itself stand behind one. -/
def Opens (ks : List TokenKind) (cs : List Char) : Prop :=
  ∀ ks' rest, Separated rest → Spells ks' rest →
    Separated (cs ++ rest) ∧ Spells (ks ++ ks') (cs ++ rest)

theorem opens_nil : Opens [] [] :=
  fun _ _ hs h => ⟨hs, h⟩

theorem opens_subject (s : Statement) :
    Opens s.subjectPart (if s.subject = "" then [] else ' ' :: quote s.subject.toList) := by
  unfold subjectPart
  split
  · exact opens_nil
  · intro ks' rest _ h
    exact ⟨separated_cons (by decide) _, .blank (by decide) (spells_quote _ h)⟩

theorem opens_cards (s : Statement) : Opens s.cardsPart (if s.cards = [] then []
    else ' ' :: '[' :: (", ".toList.intercalate (s.cards.map cardChars) ++ [']'])) := by
  unfold cardsPart
  split
  · exact opens_nil
  · intro ks' rest _ h
    have close := Spells.mark (c := ']') (k := .closeBracket) rfl h
    have cards := writes_intercalate (fun c (_ : c ∈ s.cards) => writes_card c) _ _
      (separated_cons (by decide) rest) close
    refine ⟨separated_cons (by decide) _, .blank (by decide) (.mark rfl ?_)⟩
    simpa [cardsKinds] using cards

theorem opens_pairs {s : Statement} (h : s.WellFormed) : Opens s.pairsPart
    (if s.pairChars = [] then [] else " | ".toList ++ ", ".toList.intercalate s.pairChars) := by
  rw [pairChars_eq, pairsPart]
  by_cases he : s.writtenPairs = []
  · simp only [he, List.map_nil, ↓reduceIte]
    exact opens_nil
  · rw [if_neg he, if_neg (by simpa using he)]
    intro ks' rest hs hrest
    have pairs := writes_intercalate (fun e he => writes_pair (isKey_writtenPairs h e he)) _ _
      hs hrest
    exact ⟨separated_cons (by decide) _, .blank (by decide)
      (.mark rfl (.blank (by decide) pairs))⟩

theorem spells_canonical {s : Statement} (h : s.WellFormed) :
    Spells s.canonicalKinds s.canonical.toList := by
  -- from the end of the text to its start
  obtain ⟨hsep, pairs⟩ := opens_pairs h _ _ separated_nil .done
  obtain ⟨hsep, cards⟩ := opens_cards s _ _ hsep pairs
  obtain ⟨hsep, subject⟩ := opens_subject s _ _ hsep cards
  have hne : s.keyword.toList ≠ [] := by simp [Statement.keyword, RitualGate.keyword]
  have word := Spells.word hne (isWordChar_keyword s.family s.verb) hsep subject
  simpa [canonical, canonicalChars, canonicalKinds] using word

end Statement

end RitualGate
