import Mathlib.Data.List.Forall2
import RitualGate.Proofs.Derivation
import RitualGate.Proofs.Layout

/-!
# Layout carries no meaning

Two lines with tokens of the same kinds (`SameKinds`), wherever these stand, are read alike
(`parse_alike`): both say the same statement, both say nothing, or both are refused for the same
fault at the same text. `Alike` is this relation between results. It goes through `>>=`
(`Alike.bind`), so each function that reads tokens has one lemma, and they are put together as the
functions are. `layout_insignificant` joins this to what a scan finds in a layout.
-/

namespace RitualGate

/-! ## Tokens but for columns -/

/-- Tokens of the same kinds, one by one. -/
abbrev SameKinds : List Token → List Token → Prop :=
  List.Forall₂ fun t u => t.kind = u.kind

theorem sameKinds_iff {ts us : List Token} :
    SameKinds ts us ↔ ts.map Token.kind = us.map Token.kind := by
  rw [← List.forall₂_eq_eq_eq, List.forall₂_map_left_iff, List.forall₂_map_right_iff]

theorem Token.describe_congr {t u : Token} (h : t.kind = u.kind) : t.describe = u.describe := by
  rw [describe, describe, h]

/-- Errors that lie at tokens of the same kind. -/
theorem Token.fail_alike {α β : Type} {R : α → β → Prop} {t u : Token} (h : t.kind = u.kind)
    (fault : Fault) : Alike R (.error (t.fail fault)) (.error (u.fail fault)) :=
  .error rfl (describe_congr h)

namespace Outline

/-! ## Keyword and cards -/

theorem keywordOf_alike {t u : Token} (h : t.kind = u.kind) :
    Alike Eq (keywordOf t) (keywordOf u) := by
  unfold keywordOf
  rw [← h]
  split
  · split
    · exact Token.fail_alike h _
    · simp only
      split
      · exact .error rfl rfl
      · split
        · exact .error rfl rfl
        · exact .ok rfl
  · exact Token.fail_alike h _

/-- Some parts that were read, and the tokens behind them. -/
def SameRest {α : Type} (a b : α × List Token) : Prop :=
  a.1 = b.1 ∧ SameKinds a.2 b.2

theorem cardAt_alike {t u : Token} (h : t.kind = u.kind) (card : Except VocabularyError CardRef) :
    Alike Eq (cardAt t card) (cardAt u card) := by
  cases card with
  | ok c => exact .ok rfl
  | error e => exact Token.fail_alike h _

theorem card_alike {t u o o' : Token} {ts us : List Token} (h : t.kind = u.kind)
    (card : Except VocabularyError CardRef)
    (hrest : Alike SameRest (readCardEnd o ts) (readCardEnd o' us)) :
    Alike SameRest
      (do let c ← cardAt t card; let (cs, rest) ← readCardEnd o ts; return (c :: cs, rest))
      (do let c ← cardAt u card; let (cs, rest) ← readCardEnd o' us; return (c :: cs, rest)) := by
  refine (cardAt_alike h card).bind fun c _ hc => hrest.bind fun a b hab => .ok ⟨?_, hab.2⟩
  rw [← hc, hab.1]

/-- Cards and what follows a card are read by two functions that call each other, so they are one
statement. A marked card takes two tokens, so the induction is on the length. -/
theorem readCards_alike {o o' : Token} (ho : o.kind = o'.kind) {ts us : List Token}
    (h : SameKinds ts us) :
    (∀ first, Alike SameRest (readCards o first ts) (readCards o' first us)) ∧
      Alike SameRest (readCardEnd o ts) (readCardEnd o' us) := by
  induction hn : ts.length using Nat.strongRecOn generalizing ts us with
  | ind n ih =>
    cases h with
    | nil =>
      refine ⟨fun first => ?_, ?_⟩
      · rw [readCards, readCards]
        exact Token.fail_alike ho _
      · rw [readCardEnd, readCardEnd]
        exact Token.fail_alike ho _
    | @cons t u ts us hk hrest =>
      obtain ⟨hcards, hend⟩ := ih ts.length (by simp [← hn]) hrest rfl
      refine ⟨fun first => ?_, ?_⟩
      · unfold readCards
        simp only [← hk]
        cases t.kind with
        | closeBracket =>
          cases first with
          | true => exact .ok ⟨rfl, hrest⟩
          | false => exact Token.fail_alike hk _
        | quoted q => exact card_alike hk _ hend
        | word w =>
          by_cases hmark : w = cardMark
          · simp only [if_pos hmark]
            cases hrest with
            | nil => exact Token.fail_alike hk _
            | @cons t' u' ts us hk' hrest =>
              have hshort : ts.length < n := by
                rw [← hn, List.length_cons, List.length_cons]
                omega
              have hend := (ih ts.length hshort hrest rfl).2
              simp only [← hk']
              cases t'.kind with
              | word w => exact card_alike hk _ hend
              | quoted q => exact card_alike hk _ hend
              | _ => exact Token.fail_alike hk _
          · simp only [if_neg hmark]
            exact card_alike hk _ hend
        | _ => exact Token.fail_alike hk _
      · rw [readCardEnd, readCardEnd, ← hk]
        cases t.kind with
        | comma => exact hcards false
        | closeBracket => exact .ok ⟨rfl, hrest⟩
        | _ => exact Token.fail_alike hk _

theorem takeCards_alike {ts us : List Token} (h : SameKinds ts us) :
    Alike SameRest (takeCards ts) (takeCards us) := by
  cases h with
  | nil => exact .ok ⟨rfl, .nil⟩
  | cons hk hrest =>
    rw [takeCards, takeCards, ← hk]
    split
    · exact (readCards_alike hk hrest).1 true
    · exact .ok ⟨rfl, .cons hk hrest⟩

/-! ## Pairs -/

theorem valueAfter_same (rest : List Char) {ts us : List Token} (h : SameKinds ts us) :
    SameRest (valueAfter rest ts) (valueAfter rest us) := by
  unfold valueAfter
  split
  · cases h with
    | nil => exact ⟨rfl, .nil⟩
    | @cons t u ts us hk hrest =>
      simp only [← hk]
      cases t.kind with
      | word w => exact ⟨rfl, hrest⟩
      | quoted q => exact ⟨rfl, hrest⟩
      | _ => exact ⟨rfl, .cons hk hrest⟩
  · exact ⟨rfl, h⟩

theorem keyAndValue_same (w : List Char) {ts us : List Token} (h : SameKinds ts us) :
    (keyAndValue w ts).1 = (keyAndValue w us).1 ∧
      SameRest (keyAndValue w ts).2 (keyAndValue w us).2 := by
  unfold keyAndValue
  split
  · exact ⟨rfl, valueAfter_same _ h⟩
  · cases h with
    | nil => exact ⟨rfl, rfl, .nil⟩
    | @cons t u ts us hk hrest =>
      simp only [← hk]
      split
      · exact ⟨rfl, valueAfter_same _ hrest⟩
      · exact ⟨rfl, rfl, .cons hk hrest⟩

/-- Segments of tokens of the same kinds. -/
structure Segment.Same (s s' : Segment) : Prop where
  tokens : SameKinds s.tokens s'.tokens
  comma : Option.Rel (fun t u => t.kind = u.kind) s.comma s'.comma

theorem segments_same {ts us : List Token} (h : SameKinds ts us) :
    List.Forall₂ Segment.Same (segments ts) (segments us) := by
  induction h with
  | nil => exact .cons ⟨.nil, .none⟩ .nil
  | @cons t u ts us hk hrest ih =>
    rw [segments, segments, ← hk]
    generalize segments ts = ss, segments us = ss' at ih ⊢
    split
    · exact .cons ⟨.nil, .some hk⟩ ih
    · cases ih with
      | nil => exact .cons ⟨.cons hk .nil, .none⟩ .nil
      | cons hs hss => exact .cons ⟨.cons hk hs.tokens, hs.comma⟩ hss

theorem pair?_alike {s s' : Segment} (h : s.Same s') :
    Alike (fun p q => entriesOf p.toList = entriesOf q.toList) s.pair? s'.pair? := by
  obtain ⟨ts, c⟩ := s
  obtain ⟨us, c'⟩ := s'
  obtain ⟨htokens, hcomma⟩ := h
  cases htokens with
  | nil =>
    cases hcomma with
    | none => exact .ok rfl
    | some hk => exact Token.fail_alike hk _
  | @cons t u ts us hk hrest =>
    simp only [Segment.pair?, ← hk]
    cases t.kind with
    | word w =>
      rcases hread : keyAndValue w ts with ⟨key, value, behind⟩
      rcases hread' : keyAndValue w us with ⟨key', value', behind'⟩
      have hsame := keyAndValue_same w hrest
      rw [hread, hread'] at hsame
      obtain ⟨rfl, rfl, hbehind⟩ := hsame
      simp only [hread, hread']
      split
      · exact Token.fail_alike hk _
      · cases hbehind with
        | nil => exact .ok rfl
        | cons hk' _ => exact Token.fail_alike hk' _
    | _ => exact Token.fail_alike hk _

theorem pairsOf_alike {ss ss' : List Segment} (h : List.Forall₂ Segment.Same ss ss') :
    Alike (fun ps qs => entriesOf ps = entriesOf qs) (pairsOf ss) (pairsOf ss') := by
  induction h with
  | nil => exact .ok rfl
  | cons hs _ ih =>
    rw [pairsOf, pairsOf]
    refine (pair?_alike hs).bind fun p q hpq => ih.bind fun ps qs hpqs => .ok ?_
    simp only [entriesOf, List.map_append] at hpq hpqs ⊢
    rw [hpq, hpqs]

theorem takePairs_alike {ts us : List Token} (h : SameKinds ts us) :
    Alike (fun ps qs => entriesOf ps = entriesOf qs) (takePairs ts) (takePairs us) := by
  cases h with
  | nil => exact .ok rfl
  | @cons t u ts us hk hrest =>
    rw [takePairs, takePairs, ← hk]
    split
    · have hnil : ts = [] ↔ us = [] := by
        rw [← List.length_eq_zero_iff, hrest.length_eq, List.length_eq_zero_iff]
      rw [readPairs, readPairs]
      by_cases hts : ts = []
      · rw [if_pos hts, if_pos (hnil.1 hts)]
        exact Token.fail_alike hk _
      · rw [if_neg hts, if_neg (mt hnil.2 hts)]
        exact pairsOf_alike (segments_same hrest)
    · exact Token.fail_alike hk _

/-! ## Lines -/

/-- A subject, and a token of the kind of its own. -/
def SameSubject (a b : String × Token) : Prop :=
  a.1 = b.1 ∧ a.2.kind = b.2.kind

/-- Outlines with the same parts, read off tokens of the same kinds. -/
structure Same (o o' : Outline) : Prop where
  head : o.head.kind = o'.head.kind
  family : o.family = o'.family
  verb : o.verb = o'.verb
  subject : Option.Rel SameSubject o.subject o'.subject
  cards : o.cards = o'.cards
  pairs : entriesOf o.pairs = entriesOf o'.pairs

theorem takeSubject_same {ts us : List Token} (h : SameKinds ts us) :
    Option.Rel SameSubject (takeSubject ts).1 (takeSubject us).1 ∧
      SameKinds (takeSubject ts).2 (takeSubject us).2 := by
  cases h with
  | nil => exact ⟨.none, .nil⟩
  | @cons t u ts us hk hrest =>
    simp only [takeSubject, ← hk]
    cases hkind : t.kind with
    | quoted q => exact ⟨.some ⟨rfl, hk⟩, hrest⟩
    | _ => exact ⟨.none, .cons hk hrest⟩

theorem ofTokens_alike {ts us : List Token} (h : SameKinds ts us) :
    Alike Same (ofTokens ts) (ofTokens us) := by
  cases h with
  | nil => exact .error rfl rfl
  | @cons t u ts us hk hrest =>
    obtain ⟨hsubject, hbehind⟩ := takeSubject_same hrest
    rw [ofTokens, ofTokens]
    refine (keywordOf_alike hk).bind fun fv _ hfv => ?_
    obtain rfl := hfv
    refine (takeCards_alike hbehind).bind fun a b hab => ?_
    exact (takePairs_alike hab.2).bind fun ps qs hpqs => .ok ⟨hk, rfl, rfl, hsubject, hab.1, hpqs⟩

/-! ## Building -/

theorem Same.requireSubject_alike {o o' : Outline} (h : o.Same o') (what : String) :
    Alike SameSubject (o.requireSubject what) (o'.requireSubject what) := by
  have hsubject := h.subject
  unfold requireSubject
  generalize o.subject = a, o'.subject = b at hsubject
  cases hsubject with
  | none =>
    rw [Token.describe_congr h.head]
    exact Token.fail_alike h.head _
  | some hab => exact .ok hab

theorem Same.subjectAs_alike {o o' : Outline} (h : o.Same o') {α : Type} (what : String)
    (ofText : String → Except VocabularyError α) :
    Alike Eq (o.subjectAs what ofText) (o'.subjectAs what ofText) := by
  refine (h.requireSubject_alike what).bind fun a b hab => ?_
  obtain ⟨text, t⟩ := a
  obtain ⟨_, u⟩ := b
  obtain ⟨rfl, hkind⟩ := hab
  dsimp only
  cases ofText text with
  | ok a => exact .ok rfl
  | error e => exact Token.fail_alike hkind _

theorem Same.base_eq {o o' : Outline} (h : o.Same o') : o.base = o'.base := by
  have hsubject : o.subject.map Prod.fst = o'.subject.map Prod.fst := by
    have hsubject := h.subject
    generalize o.subject = a, o'.subject = b at hsubject ⊢
    cases hsubject with
    | none => rfl
    | some hab => exact congrArg some hab.1
  simp only [base, h.family, h.verb, hsubject, h.cards]

theorem Same.withSubject_alike {o o' : Outline} (h : o.Same o') :
    Alike Eq o.withSubject o'.withSubject := by
  unfold withSubject
  rw [h.base_eq, h.family, h.verb, h.cards]
  split
  · exact (h.subjectAs_alike _ _).bind fun a b hab => .ok (hab ▸ rfl)
  · exact (h.subjectAs_alike _ _).bind fun a b hab => .ok (hab ▸ rfl)
  · exact (h.subjectAs_alike _ _).bind fun a b hab => .ok (hab ▸ rfl)
  · split
    · exact Token.fail_alike h.head _
    · exact .ok rfl
  · exact .ok rfl

theorem Same.build_alike {o o' : Outline} (h : o.Same o') : Alike Eq o.build o'.build := by
  refine h.withSubject_alike.bind fun s _ hs => ?_
  rw [← hs]
  exact applyPairs_alike h.pairs s

end Outline

namespace Statement

theorem ofTokens_alike {ts us : List Token} (h : SameKinds ts us) :
    Alike Eq (ofTokens ts) (ofTokens us) :=
  (Outline.ofTokens_alike h).bind fun _ _ ho => ho.build_alike

/-! ## Remarks -/

/-- Whether a remark starts with a character before others. -/
def opensRemark (c : Char) (cs : List Char) : Bool :=
  c == '#' || (c == '/' && cs.head? == some '/')

/-- Whether tokens are those of a remark. -/
def remarks : List TokenKind → Bool
  | [] => true
  | .word (c :: w) :: _ => opensRemark c w
  | _ => false

theorem isRemark_cons {c : Char} (hc : Text.isBlank c = false) (cs : List Char) :
    isRemark (c :: cs) = opensRemark c cs := by
  rw [isRemark, Text.trimStart, List.dropWhile_cons_of_neg (by simp [hc])]
  cases cs with
  | nil => by_cases hash : c = '#' <;> simp [opensRemark, hash]
  | cons d cs =>
    by_cases hash : c = '#' <;> by_cases hslash : c = '/' <;> by_cases hd : d = '/' <;>
      simp_all [opensRemark]

open Token in
/-- Its tokens tell whether a line is a remark. -/
theorem isRemark_of_spells {ks : List TokenKind} {cs : List Char} (h : Spells ks cs) :
    isRemark cs = remarks ks := by
  induction h with
  | done => rfl
  | blank hc _ ih => rw [← ih, isRemark, isRemark, Text.trimStart, List.dropWhile_cons_of_pos hc,
      Text.trimStart]
  | mark hk _ _ =>
    rw [isRemark_cons (isBlank_of_punctuation? hk).1]
    rcases punctuation?_cases hk with ⟨rfl, rfl⟩ | ⟨rfl, rfl⟩ | ⟨rfl, rfl⟩ | ⟨rfl, rfl⟩ <;> rfl
  | quoted hb _ _ => rw [isRemark_cons (by decide)]; rfl
  | @word w ks cs hne hw hs _ _ =>
    obtain ⟨c, w, rfl⟩ := List.exists_cons_of_ne_nil hne
    obtain ⟨hc, -, -⟩ := isWordChar_iff.1 (hw c List.mem_cons_self)
    rw [List.cons_append, isRemark_cons hc, remarks]
    cases w with
    | cons d w => rfl
    | nil =>
      -- a slash behind the word would belong to it
      have hslash : cs.head? ≠ some '/' := fun h => absurd (hs '/' h) (by decide)
      simp [opensRemark, hslash]

/-- Lines that are spelled with the same tokens are read alike. -/
theorem parse_alike {ks : List TokenKind} {line other : String}
    (h : Token.Spells ks line.toList) (h' : Token.Spells ks other.toList) :
    Alike Eq (parse line) (parse other) := by
  obtain ⟨ts, hscan, hts⟩ := Token.scan_of_spells h
  obtain ⟨us, hscan', hus⟩ := Token.scan_of_spells h'
  unfold parse
  rw [isRemark_of_spells h, isRemark_of_spells h', hscan, hscan']
  split
  · exact .ok rfl
  · have hkinds : SameKinds ts us := sameKinds_iff.2 (hts.trans hus.symm)
    exact (ofTokens_alike hkinds).bind fun s t hst => .ok (hst ▸ rfl)

end Statement

/-! ## Spellings -/

namespace Token

/-- `IsSpelling ks cs`: the characters `cs`, from the first column on, are a layout of tokens of the
kinds `ks`. -/
def IsSpelling (ks : List TokenKind) (cs : List Char) : Prop :=
  ∃ ts, ts.map kind = ks ∧ Laid 1 ts cs

theorem IsSpelling.spells {ks : List TokenKind} {cs : List Char} (h : IsSpelling ks cs) :
    Spells ks cs := by
  obtain ⟨ts, rfl, hlaid⟩ := h
  exact (spells_scan cs).1 hlaid.scanFrom

/-- A line has tokens of some kinds exactly if it is a spelling of them. The tokens lie as they are
laid out, at increasing columns, which count characters from one and at which the tokens start. A
line without tokens has a quote that opens behind a layout of tokens and is never closed. And
whatever is spelled with the same tokens is read alike: as the same statement, as none, or with the
same fault at the same text. -/
theorem layout_insignificant (line : String) :
    (∀ ks, (∃ ts, scan line = .ok ts ∧ ts.map kind = ks) ↔ IsSpelling ks line.toList) ∧
    (∀ ts, scan line = .ok ts → Laid 1 ts line.toList ∧
      (ts.map column).Pairwise (· < ·) ∧
      ∀ t ∈ ts, ∃ before text behind, line.toList = before ++ (text ++ behind) ∧
        Lexeme t.kind text ∧ t.column = before.length + 1) ∧
    (∀ e, scan line = .error e → ∃ ts before rest, line.toList = before ++ '"' :: rest ∧
      Laid 1 ts before ∧ Unclosed rest ∧ e = unterminated (before.length + 1)) ∧
    ∀ ks other, IsSpelling ks line.toList → IsSpelling ks other.toList →
      Alike Eq (Statement.parse line) (Statement.parse other) := by
  refine ⟨fun ks => ⟨?_, ?_⟩, fun ts h => ?_, fun e h => ?_, fun ks other h h' => ?_⟩
  · rintro ⟨ts, h, hks⟩
    exact ⟨ts, hks, scanFrom_eq_ok_iff.1 h⟩
  · rintro ⟨ts, hks, hlaid⟩
    exact ⟨ts, hlaid.scanFrom, hks⟩
  · have hlaid : Laid 1 ts line.toList := scanFrom_eq_ok_iff.1 h
    refine ⟨hlaid, hlaid.increasing, fun t ht => ?_⟩
    obtain ⟨before, text, behind, hline, htext, hcolumn⟩ := hlaid.starts t ht
    exact ⟨before, text, behind, hline, htext, hcolumn.trans (Nat.add_comm _ _)⟩
  · obtain ⟨ts, before, rest, hline, hts, hrest, he⟩ := exists_unclosed_of_scanFrom h
    exact ⟨ts, before, rest, hline, scanFrom_eq_ok_iff.1 hts, hrest, Nat.add_comm 1 _ ▸ he⟩
  · exact Statement.parse_alike h.spells h'.spells

/-- A line that is written tightly and one that is not, with an escaped quote, an escaped backslash
and two words that need a blank; and a line whose quote is open. -/
theorem layout_insignificant_tight :
    let ks : List TokenKind :=
      [.word "ritual.engage".toList, .quoted "a\"b\\".toList, .pipe, .word "mood".toList,
        .word ":calm".toList]
    let line := "ritual.engage\"a\\\"b\\\\\"|mood :calm"
    let other := " ritual.engage  \"a\\\"b\\\\\" |\tmood   :calm "
    let ts := ks.zipWith Token.mk [2, 17, 26, 28, 35]
    IsSpelling ks line.toList ∧ IsSpelling ks other.toList ∧ scan other = .ok ts ∧
      Laid 1 ts other.toList ∧ Alike Eq (Statement.parse line) (Statement.parse other) ∧
      ∃ before rest, "voice.use \"@sage".toList = before ++ '"' :: rest ∧ Unclosed rest := by
  intro ks line other ts
  have hline : scan line = .ok (ks.zipWith Token.mk [1, 14, 22, 23, 28]) := by decide +kernel
  have hother : scan other = .ok ts := by decide +kernel
  have hopen : scan "voice.use \"@sage" = .error (unterminated 11) := by decide +kernel
  obtain ⟨hspells, -, -, halike⟩ := layout_insignificant line
  obtain ⟨hspells', hlaid, -⟩ := layout_insignificant other
  obtain ⟨-, -, hunclosed, -⟩ := layout_insignificant "voice.use \"@sage"
  have hks : IsSpelling ks line.toList := (hspells ks).1 ⟨_, hline, by decide +kernel⟩
  have hks' : IsSpelling ks other.toList := (hspells' ks).1 ⟨_, hother, by decide +kernel⟩
  obtain ⟨-, before, rest, hbefore, -, hrest, -⟩ := hunclosed _ hopen
  exact ⟨hks, hks', hother, (hlaid ts hother).1, halike ks other hks hks', before, rest, hbefore,
    hrest⟩

end Token

end RitualGate
