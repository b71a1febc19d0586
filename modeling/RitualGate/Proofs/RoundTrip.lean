import RitualGate.Proofs.Canonical

/-!
# The canonical text reads back

The canonical text of a well-formed statement reads as the statement. The tokens that it spells give
an outline with the parts of the statement (`ofTokens_kinds`). The outline builds the statement
(`build_outlines`): what the text leaves out is what the keyword and the subject say anyway, and the
pairs add the rest. `parse_canonical` puts the two together. So every well-formed statement is what
some line says, and `exists_parse_iff` spells out which statements these are.
-/

namespace RitualGate

namespace Outline

open Statement (cardKind cardsKinds pairKinds pairsKinds)

/-! ## Card references -/

/-- What a card reference is read from gives back the reference. -/
theorem readCards_cardKind {c : CardRef} (hc : c.InRange) {t opening : Token} (first : Bool)
    {ts : List Token} (hk : t.kind = cardKind c) :
    readCards opening first (t :: ts) = (do
      let (cs, rest) ← readCardEnd opening ts
      return (c :: cs, rest)) := by
  have word {c : CardRef} (hne : c.text ≠ "") (hread : CardRef.ofUnmarked c.text = .ok c)
      (hk : t.kind = .word c.token.toList) : readCards opening first (t :: ts) = (do
        let (cs, rest) ← readCardEnd opening ts
        return (c :: cs, rest)) := by
    have hmark : c.token.toList ≠ cardMark := by
      simpa [CardRef.token, cardMark] using hne
    have hcard : CardRef.ofWord c.token = .ok c := by rw [CardRef.ofWord_token, hread]
    rw [readCards.eq_def]
    simp only [hk, hmark, ↓reduceIte, String.ofList_toList, hcard, cardAt]
    rfl
  cases c with
  | id text =>
    simp only [cardKind] at hk
    split at hk
    · rename_i h
      rw [Bool.and_eq_true] at h
      exact word hc (CardRef.ofUnmarked_of_readsAsId h.2) hk
    · have hcard : CardRef.ofQuoted text = .ok (.id text) := if_neg hc
      rw [readCards.eq_def]
      simp only [hk, String.ofList_toList, hcard, cardAt]
      rfl
  | latest n =>
    have hne : (CardRef.latest n).text ≠ "" :=
      CardRef.ne_of_head? (by simp [CardRef.toList_latest])
    exact word hne (CardRef.ofUnmarked_latest hc) hk
  | topicRelevant => exact word (c := .topicRelevant) (by decide) rfl hk
  | topRelevant k =>
    have hne : (CardRef.topRelevant k).text ≠ "" :=
      CardRef.ne_of_head? (by simp [CardRef.toList_topRelevant])
    exact word hne (CardRef.ofUnmarked_topRelevant hc) hk

/-- The tokens of a list of references up to its closing bracket give back the list. -/
theorem readCards_kinds {opening : Token} {cards : List CardRef} (hne : cards ≠ [])
    (hall : ∀ c ∈ cards, c.InRange) {ks : List TokenKind} {ts : List Token} (first : Bool)
    (hts : ts.map Token.kind = cardsKinds cards ++ .closeBracket :: ks) :
    ∃ rest, readCards opening first ts = .ok (cards, rest) ∧ rest.map Token.kind = ks := by
  induction cards generalizing ts first with
  | nil => exact absurd rfl hne
  | cons c cards ih =>
    obtain ⟨hc, hcards⟩ := List.forall_mem_cons.1 hall
    cases cards with
    | nil =>
      simp only [cardsKinds, List.map_cons, List.map_nil, List.intercalate_singleton,
        List.cons_append, List.nil_append] at hts
      obtain ⟨t, ts, rfl, hk, hts⟩ := List.map_eq_cons_iff.1 hts
      obtain ⟨u, rest, rfl, hu, hrest⟩ := List.map_eq_cons_iff.1 hts
      refine ⟨rest, ?_, hrest⟩
      rw [readCards_cardKind hc first hk, readCardEnd.eq_def]
      simp only [hu]
      rfl
    | cons d cards =>
      simp only [cardsKinds, List.map_cons, List.intercalate_cons_cons, List.cons_append,
        List.nil_append] at hts
      obtain ⟨t, ts, rfl, hk, hts⟩ := List.map_eq_cons_iff.1 hts
      obtain ⟨u, us, rfl, hu, hus⟩ := List.map_eq_cons_iff.1 hts
      obtain ⟨rest, hread, hrest⟩ := ih (by simp) hcards false hus
      refine ⟨rest, ?_, hrest⟩
      rw [readCards_cardKind hc first hk, readCardEnd.eq_def]
      simp only [hu, hread]
      rfl

/-! ## Pairs -/

theorem segments_single {ts : List Token} (h : ∀ t ∈ ts, t.kind ≠ .comma) :
    segments ts = [⟨ts, none⟩] := by
  induction ts with
  | nil => rfl
  | cons t ts ih =>
    obtain ⟨ht, hts⟩ := List.forall_mem_cons.1 h
    rw [segments, if_neg ht, ih hts]

theorem segments_append {ts us : List Token} {c : Token} (h : ∀ t ∈ ts, t.kind ≠ .comma)
    (hc : c.kind = .comma) : segments (ts ++ c :: us) = ⟨ts, some c⟩ :: segments us := by
  induction ts with
  | nil => rw [List.nil_append, segments, if_pos hc]
  | cons t ts ih =>
    obtain ⟨ht, hts⟩ := List.forall_mem_cons.1 h
    rw [List.cons_append, segments, if_neg ht, ih hts]

theorem comma_notMem_pairKinds (e : String × String) : .comma ∉ pairKinds e := by
  unfold pairKinds
  repeat' split
  all_goals simp

theorem keyAndValue_colon {key value : List Char} (h : ':' ∉ key) (hne : value ≠ [])
    (ts : List Token) : keyAndValue (key ++ ':' :: value) ts = (key, value, ts) := by
  simp [keyAndValue, Text.splitOnce_append h, valueAfter, hne]

theorem pair?_kinds {e : String × String} (h : IsKey e.1) {s : Segment}
    (hs : s.tokens.map Token.kind = pairKinds e) :
    ∃ p, s.pair? = .ok (some p) ∧ (p.key, p.value) = e := by
  obtain ⟨key, value⟩ := e
  obtain ⟨hne, hkey⟩ := h
  have hne : key.toList ≠ [] := by simpa using hne
  have hcolon : ':' ∉ key.toList := fun hc => (hkey ':' hc).2 rfl
  simp only [pairKinds] at hs
  split at hs
  · rename_i htrue
    obtain ⟨t, ts, hts, hk, hnil⟩ := List.map_eq_cons_iff.1 hs
    obtain rfl := List.map_eq_nil_iff.1 hnil
    refine ⟨⟨key, value, t.column⟩, ?_, rfl⟩
    have hkv : keyAndValue key.toList [] = (key.toList, "true".toList, []) := by
      simp [keyAndValue, Text.splitOnce_eq_none_iff.2 hcolon]
    simp only [Segment.pair?, hts, hk, hkv, hne, ↓reduceIte, String.ofList_toList, htrue]
  · split at hs
    · rename_i hplain
      obtain ⟨t, ts, hts, hk, hnil⟩ := List.map_eq_cons_iff.1 hs
      obtain rfl := List.map_eq_nil_iff.1 hnil
      refine ⟨⟨key, value, t.column⟩, ?_, rfl⟩
      have hkv := keyAndValue_colon hcolon (Statement.isPlain_iff.1 hplain).1 []
      simp only [Segment.pair?, hts, hk, hkv, hne, ↓reduceIte, String.ofList_toList]
    · obtain ⟨t, ts, hts, hk, hrest⟩ := List.map_eq_cons_iff.1 hs
      obtain ⟨u, us, rfl, hu, hnil⟩ := List.map_eq_cons_iff.1 hrest
      obtain rfl := List.map_eq_nil_iff.1 hnil
      refine ⟨⟨key, value, t.column⟩, ?_, rfl⟩
      have hkv : keyAndValue (key.toList ++ [':']) [u] = (key.toList, value.toList, []) := by
        simp [keyAndValue, Text.splitOnce_append hcolon, valueAfter, hu]
      simp only [Segment.pair?, hts, hk, hkv, hne, ↓reduceIte, String.ofList_toList]

/-- Pairs, as keys and values. -/
def entriesOf (ps : List Pair) : List (String × String) :=
  ps.map fun p => (p.key, p.value)

/-- The tokens of some pairs give back the pairs. -/
theorem pairsOf_kinds {es : List (String × String)} (hne : es ≠ []) (hkey : ∀ e ∈ es, IsKey e.1)
    {ts : List Token} (hts : ts.map Token.kind = pairsKinds es) :
    ∃ ps, pairsOf (segments ts) = .ok ps ∧ entriesOf ps = es := by
  have noComma {e : String × String} {us : List Token} (h : us.map Token.kind = pairKinds e) :
      ∀ t ∈ us, t.kind ≠ .comma := fun t ht hk =>
    comma_notMem_pairKinds e (h ▸ hk ▸ List.mem_map_of_mem ht)
  induction es generalizing ts with
  | nil => exact absurd rfl hne
  | cons e es ih =>
    obtain ⟨he, hes⟩ := List.forall_mem_cons.1 hkey
    cases es with
    | nil =>
      simp only [pairsKinds, List.map_cons, List.map_nil, List.intercalate_singleton] at hts
      obtain ⟨p, hp, hpe⟩ := pair?_kinds (s := ⟨ts, none⟩) he hts
      refine ⟨[p], ?_, by simp [entriesOf, hpe]⟩
      rw [segments_single (noComma hts)]
      simp only [pairsOf, hp]
      rfl
    | cons f es =>
      simp only [pairsKinds, List.map_cons, List.intercalate_cons_cons, List.append_assoc,
        List.cons_append, List.nil_append] at hts
      obtain ⟨us, vs, rfl, hus, hvs⟩ := List.map_eq_append_iff.1 hts
      obtain ⟨c, vs, rfl, hc, hvs⟩ := List.map_eq_cons_iff.1 hvs
      obtain ⟨ps, hps, hpsk⟩ := ih (by simp) hes hvs
      obtain ⟨p, hp, hpe⟩ := pair?_kinds (s := ⟨us, some c⟩) he hus
      refine ⟨p :: ps, ?_, congrArg₂ List.cons hpe hpsk⟩
      rw [segments_append (noComma hus) hc]
      simp only [pairsOf, hp, hps]
      rfl

/-! ## The parts of the line -/

theorem keywordOf_keyword {f : Family} {v : Verb} (h : f.allows v = true) {head : Token}
    (hk : head.kind = .word (RitualGate.keyword f v).toList) : keywordOf head = .ok (f, v) := by
  have hdot : '.' ∉ f.name.toList := by cases f <;> decide
  have hchars : (RitualGate.keyword f v).toList = f.name.toList ++ '.' :: v.name.toList := by
    simp [RitualGate.keyword]
  have hverb : Option.filter f.allows (some v) = some v := by rw [Option.filter_some, if_pos h]
  simp [keywordOf, hk, hchars, Text.splitOnce_append hdot, Family.ofName?_name, Verb.ofName?_name,
    hverb]

theorem takeSubject_part {s : Statement} {ks : List TokenKind} {ts : List Token}
    (hks : ∀ q, ks.head? ≠ some (.quoted q)) (hts : ts.map Token.kind = s.subjectPart ++ ks) :
    ((takeSubject ts).1.map Prod.fst) = (if s.subject = "" then none else some s.subject) ∧
      (takeSubject ts).2.map Token.kind = ks := by
  unfold Statement.subjectPart at hts
  by_cases he : s.subject = ""
  · rw [if_pos he, List.nil_append] at hts
    subst hts
    cases ts with
    | nil => simp [takeSubject, he]
    | cons t ts =>
      cases hk : t.kind with
      | quoted q => exact absurd (by simp [hk]) (hks q)
      | _ => simp [takeSubject, hk, he]
  · rw [if_neg he, List.singleton_append] at hts
    obtain ⟨t, ts, rfl, hk, hrest⟩ := List.map_eq_cons_iff.1 hts
    simp [takeSubject, hk, he, hrest]

theorem takeCards_part {s : Statement} (hcards : ∀ c ∈ s.cards, c.InRange) {ks : List TokenKind}
    {ts : List Token} (hks : ks.head? ≠ some .openBracket)
    (hts : ts.map Token.kind = s.cardsPart ++ ks) :
    ∃ rest, takeCards ts = .ok (s.cards, rest) ∧ rest.map Token.kind = ks := by
  unfold Statement.cardsPart at hts
  by_cases he : s.cards = []
  · rw [if_pos he, List.nil_append] at hts
    subst hts
    refine ⟨ts, ?_, rfl⟩
    cases ts with
    | nil => rw [takeCards, he]
    | cons t ts => rw [takeCards, he, if_neg (by simpa using hks)]
  · rw [if_neg he, List.cons_append, List.append_assoc, List.singleton_append] at hts
    obtain ⟨t, ts, rfl, hk, hrest⟩ := List.map_eq_cons_iff.1 hts
    rw [takeCards, if_pos hk]
    exact readCards_kinds he hcards true hrest

theorem pairsKinds_ne_nil {es : List (String × String)} (h : es ≠ []) : pairsKinds es ≠ [] := by
  have pair (e : String × String) : pairKinds e ≠ [] := by
    unfold pairKinds
    repeat' split
    all_goals simp
  cases es with
  | nil => exact absurd rfl h
  | cons e es => cases es <;> simp [pairsKinds, List.intercalate_cons_cons, pair]

theorem takePairs_part {s : Statement} (hkey : ∀ e ∈ s.writtenPairs, IsKey e.1) {ts : List Token}
    (hts : ts.map Token.kind = s.pairsPart) :
    ∃ ps, takePairs ts = .ok ps ∧ entriesOf ps = s.writtenPairs := by
  unfold Statement.pairsPart at hts
  by_cases he : s.writtenPairs = []
  · rw [if_pos he] at hts
    obtain rfl := List.map_eq_nil_iff.1 hts
    exact ⟨[], rfl, he.symm⟩
  · rw [if_neg he] at hts
    obtain ⟨t, ts, rfl, hk, hrest⟩ := List.map_eq_cons_iff.1 hts
    have hne : ts ≠ [] := by
      rintro rfl
      exact pairsKinds_ne_nil he hrest.symm
    rw [takePairs, if_pos hk, readPairs, if_neg hne]
    exact pairsOf_kinds he hkey hrest

/-- `o.Outlines s`: the outline has the parts of the canonical text of the statement. -/
structure Outlines (o : Outline) (s : Statement) : Prop where
  family : o.family = s.family
  verb : o.verb = s.verb
  subject : o.subject.map Prod.fst = if s.subject = "" then none else some s.subject
  cards : o.cards = s.cards
  pairs : entriesOf o.pairs = s.writtenPairs

/-- The tokens of the canonical text give back its parts. -/
theorem ofTokens_kinds {s : Statement} (h : s.WellFormed) {ts : List Token}
    (hts : ts.map Token.kind = s.canonicalKinds) : ∃ o, ofTokens ts = .ok o ∧ o.Outlines s := by
  obtain ⟨head, ts, rfl, hk, hts⟩ := List.map_eq_cons_iff.1 hts
  have noBracket : s.pairsPart.head? ≠ some .openBracket := by
    unfold Statement.pairsPart
    split <;> simp
  have noQuote (q : List Char) : (s.cardsPart ++ s.pairsPart).head? ≠ some (.quoted q) := by
    unfold Statement.cardsPart Statement.pairsPart
    split <;> split <;> simp
  obtain ⟨hsubject, hrest⟩ := takeSubject_part noQuote hts
  obtain ⟨rest, hcards, hrest⟩ := takeCards_part h.cards noBracket hrest
  obtain ⟨ps, hpairs, hps⟩ := takePairs_part (Statement.isKey_writtenPairs h) hrest
  refine ⟨⟨head, s.family, s.verb, (takeSubject ts).1, s.cards, ps⟩, ?_, rfl, rfl, hsubject, rfl,
    hps⟩
  rw [ofTokens, keywordOf_keyword h.allows hk]
  exact bind_eq_ok_iff.2 ⟨_, rfl, bind_eq_ok_iff.2 ⟨_, hcards, bind_eq_ok_iff.2 ⟨_, hpairs, rfl⟩⟩⟩

end Outline

/-! ## Pairs and fields -/

namespace Pair

theorem valueAs_eq {α : Type} {ofText : String → Except VocabularyError α} {p : Pair} {a : α}
    (h : ofText p.value = .ok a) : p.valueAs ofText = .ok a := by
  rw [valueAs, h]

theorem apply_voice {s : Statement} {p : Pair} {persona : Persona}
    (hp : (p.key, p.value) = ("voice", persona.token)) (hs : s.voice = none) :
    p.apply s = .ok { s with voice := some persona } := by
  obtain ⟨hkey, hvalue⟩ := Prod.mk.inj hp
  have hread : p.valueAs Persona.ofText = .ok persona :=
    valueAs_eq (by rw [hvalue, Persona.ofText_token])
  rw [apply, if_pos hkey, hread, hs]
  rfl

theorem apply_bandwidth {s : Statement} {p : Pair} {l : Level}
    (hp : (p.key, p.value) = ("bandwidth", l.name)) (hs : s.bandwidth = none) :
    p.apply s = .ok { s with bandwidth := some l } := by
  obtain ⟨hkey, hvalue⟩ := Prod.mk.inj hp
  have hread : p.valueAs Level.ofText = .ok l := valueAs_eq (by rw [hvalue, Level.ofText_name])
  rw [apply, if_neg (by simp [hkey]), if_pos hkey, hread, hs]
  rfl

theorem apply_anchor {s : Statement} {p : Pair} {a : Anchor}
    (hp : (p.key, p.value) = ("anchor", a.text)) :
    p.apply s = .ok { s with anchors := s.anchors.insert a } := by
  obtain ⟨hkey, hvalue⟩ := Prod.mk.inj hp
  have hread : p.valueAs Anchor.ofText = .ok a := valueAs_eq (by rw [hvalue, Anchor.ofText_text])
  rw [apply, if_neg (by simp [hkey]), if_neg (by simp [hkey]), if_pos hkey, hread]
  rfl

theorem apply_intent {s : Statement} {p : Pair} {i : Intent}
    (hp : (p.key, p.value) = ("intent", i.name)) :
    p.apply s = .ok { s with intent := some i } := by
  obtain ⟨hkey, hvalue⟩ := Prod.mk.inj hp
  have hread : p.valueAs Intent.ofText = .ok i := valueAs_eq (by rw [hvalue, Intent.ofText_name])
  rw [apply, if_neg (by simp [hkey]), if_neg (by simp [hkey]), if_neg (by simp [hkey]), if_pos hkey,
    hread]
  rfl

theorem apply_arg {s : Statement} {p : Pair} (hkey : p.key ∉ reservedKeys)
    (hnew : s.args.contains p.key = false) :
    p.apply s = .ok { s with args := s.args.insert p.key p.value } := by
  simp only [reservedKeys, List.mem_cons, List.not_mem_nil, or_false, not_or] at hkey
  obtain ⟨hvoice, hlevel, hanchor, hintent⟩ := hkey
  rw [apply, if_neg hvoice, if_neg hlevel, if_neg hanchor, if_neg hintent, if_neg (by simp [hnew])]

end Pair

/-- An entry behind all the others. -/
theorem insertEntry_last {l : List (String × String)} {key value : String}
    (h : ∀ e ∈ l, e.1 < key) : insertEntry key value l = l ++ [(key, value)] := by
  induction l with
  | nil => rfl
  | cons e l ih =>
    obtain ⟨he, hl⟩ := List.forall_mem_cons.1 h
    have hnot : ¬ key < e.1 := String.lt_asymm he
    have hne : key ≠ e.1 := fun eq => String.lt_irrefl _ (eq ▸ he)
    rw [insertEntry, if_neg hnot, if_neg hne, ih hl, List.cons_append]

theorem contains_eq_false {args : Args} {key : String} (h : ∀ e ∈ args.entries, e.1 < key) :
    args.contains key = false := by
  have hkey : args.entries.lookup key = none := by
    rw [List.lookup_eq_none_iff]
    intro e he
    have hne : key ≠ e.1 := fun eq => String.lt_irrefl _ (eq ▸ h e he)
    simpa using hne
  rw [Args.contains, Args.get?, hkey, Option.isSome_none]

namespace Outline

/-! ## Pairs in a row -/

theorem applyPairs_append {s t : Statement} {ps : List Pair} (h : applyPairs s ps = .ok t)
    (qs : List Pair) : applyPairs s (ps ++ qs) = applyPairs t qs := by
  induction ps generalizing s with
  | nil =>
    cases h
    rfl
  | cons p ps ih =>
    rw [applyPairs] at h
    obtain ⟨u, hu, h⟩ := bind_eq_ok_iff.1 h
    rw [List.cons_append, applyPairs, hu]
    exact ih h

theorem applyPairs_single {s t : Statement} {p : Pair} (h : p.apply s = .ok t) :
    applyPairs s [p] = .ok t := by
  rw [applyPairs, h]
  rfl

/-- A pair for a field that need not be there. -/
theorem applyPairs_option {α : Type} {o : Option α} {write : α → String × String} {ps : List Pair}
    (hps : entriesOf ps = o.toList.map write) {s t : Statement} (hnone : o = none → s = t)
    (hsome : ∀ a (p : Pair), o = some a → (p.key, p.value) = write a → p.apply s = .ok t) :
    applyPairs s ps = .ok t := by
  cases o with
  | none =>
    obtain rfl := List.map_eq_nil_iff.1 hps
    rw [hnone rfl, applyPairs]
  | some a =>
    obtain ⟨p, rfl, hp⟩ := List.map_eq_singleton_iff.1 hps
    exact applyPairs_single (hsome a p rfl hp)

theorem applyPairs_anchors {s : Statement} {as : List Anchor} {ps : List Pair}
    (hps : entriesOf ps = as.map fun a => ("anchor", a.text)) :
    applyPairs s ps = .ok { s with anchors := as.foldl AnchorSet.insert s.anchors } := by
  induction as generalizing s ps with
  | nil =>
    obtain rfl := List.map_eq_nil_iff.1 hps
    rfl
  | cons a as ih =>
    obtain ⟨p, ps, rfl, hp, hps⟩ := List.map_eq_cons_iff.1 hps
    rw [applyPairs, Pair.apply_anchor hp]
    exact ih hps

/-- Arguments in their order, each behind those before it. -/
theorem applyPairs_args {s : Statement} {args : Args} {es : List (String × String)} {ps : List Pair}
    (hps : entriesOf ps = es) (hkeys : ∀ e ∈ es, e.1 ∉ reservedKeys)
    (hargs : args.entries = s.args.entries ++ es) :
    applyPairs s ps = .ok { s with args := args } := by
  induction es generalizing s ps with
  | nil =>
    obtain rfl := List.map_eq_nil_iff.1 hps
    have hsame : s.args = args := by
      cases hs : s.args
      cases args
      simpa [hs] using hargs.symm
    rw [applyPairs, ← hsame]
  | cons e es ih =>
    obtain ⟨p, qs, rfl, rfl, hqs⟩ := List.map_eq_cons_iff.1 hps
    obtain ⟨hkey, hkeys⟩ := List.forall_mem_cons.1 hkeys
    have hlast : ∀ e ∈ s.args.entries, e.1 < p.key := by
      have hsorted := args.sorted
      rw [hargs] at hsorted
      exact fun e he => (List.pairwise_append.1 hsorted).2.2 e he _ List.mem_cons_self
    rw [applyPairs, Pair.apply_arg hkey (contains_eq_false hlast)]
    refine ih hqs hkeys ?_
    have hinsert : (s.args.insert p.key p.value).entries = s.args.entries ++ [(p.key, p.value)] :=
      insertEntry_last hlast
    simp only [hargs, hinsert, List.append_assoc, List.singleton_append]

/-! ## The statement of an outline -/

theorem base_outlines {o : Outline} {s : Statement} (ho : o.Outlines s) :
    o.base = { s with
      intent := Intent.default s.family s.subject
      args := .empty
      anchors := .empty
      voice := none
      bandwidth := none } := by
  have hsubject : (o.subject.map Prod.fst).getD "" = s.subject := by
    rw [ho.subject]
    split
    · rename_i he
      exact he.symm
    · rfl
  simp only [base, hsubject, ho.family, ho.verb, ho.cards]

/-- A subject that says something is not empty, so it stands in the text. -/
theorem subjectAs_outlines {α : Type} {o : Outline} {s : Statement} (ho : o.Outlines s)
    {ofText : String → Except VocabularyError α} {a : α} (what : String)
    (h : ofText s.subject = .ok a) (hempty : ofText "" ≠ .ok a) :
    o.subjectAs what ofText = .ok a := by
  have hne : s.subject ≠ "" := fun e => hempty (e ▸ h)
  have hsubject := ho.subject
  rw [if_neg hne] at hsubject
  obtain ⟨⟨text, t⟩, hsome, rfl⟩ := Option.map_eq_some_iff.1 hsubject
  simp only [subjectAs, requireSubject, hsome]
  exact bind_eq_ok_iff.2 ⟨_, rfl, by simp only [h]; rfl⟩

end Outline

namespace Statement

/-- What the keyword, the subject and the references say of a statement. -/
def bare (s : Statement) : Statement :=
  { s with
    intent := Intent.default s.family s.subject
    args := .empty
    anchors := s.subjectAnchor.elim .empty AnchorSet.empty.insert
    voice := if s.family = .voice ∧ s.verb = .use then s.voice else none
    bandwidth := if s.family = .bandwidth ∧ s.verb = .set then s.bandwidth else none }

end Statement

namespace Outline

theorem withSubject_outlines {o : Outline} {s : Statement} (hs : s.WellFormed) (ho : o.Outlines s) :
    o.withSubject = .ok s.bare := by
  have hbase := base_outlines ho
  rw [withSubject, ho.family, ho.verb, hbase, ho.cards]
  split
  case h_1 hf hv =>
    obtain ⟨p, hp, hvoice⟩ := hs.voice hf
    rw [subjectAs_outlines ho "persona" hp nofun]
    refine congrArg Except.ok ?_
    simp [Statement.bare, Statement.subjectAnchor, hf, hv, hvoice]
  case h_2 hf hv =>
    obtain ⟨l, hl, hlevel⟩ := hs.level hf
    rw [subjectAs_outlines ho "level" hl nofun]
    refine congrArg Except.ok ?_
    simp [Statement.bare, Statement.subjectAnchor, hf, hv, hlevel]
  case h_3 hf =>
    obtain ⟨a, ha, -⟩ := hs.anchor hf
    rw [subjectAs_outlines ho "anchor" ha nofun]
    refine congrArg Except.ok ?_
    simp [Statement.bare, Statement.subjectAnchor, hf, ha, Except.toOption]
  case h_4 hf hv =>
    rw [if_neg (hs.access hf)]
    simp [Statement.bare, Statement.subjectAnchor, hf]
  case h_5 hanchor hvoice hlevel haccess =>
    have hanchor : ¬ s.family = .anchor := hanchor
    have hvoice : ¬ (s.family = .voice ∧ s.verb = .use) := fun h => hvoice h.1 h.2
    have hlevel : ¬ (s.family = .bandwidth ∧ s.verb = .set) := fun h => hlevel h.1 h.2
    simp [Statement.bare, Statement.subjectAnchor, hvoice, hlevel, hanchor]

theorem has_foldl_insert (as : List Anchor) (t : AnchorSet) (a : Anchor) :
    (as.foldl AnchorSet.insert t).has a = true ↔ a ∈ as ∨ t.has a = true := by
  induction as generalizing t with
  | nil => simp
  | cons b as ih =>
    rw [List.foldl_cons, ih, List.mem_cons, or_assoc, or_left_comm]
    simp only [AnchorSet.insert, Bool.or_eq_true, decide_eq_true_eq]

/-- The anchors that the text names and that of the subject are those of the statement. -/
theorem anchors_written {s : Statement} (hs : s.WellFormed) :
    s.writtenAnchors.foldl AnchorSet.insert s.bare.anchors = s.anchors := by
  have hbare : ∀ a, s.bare.anchors.has a = true ↔ s.subjectAnchor = some a := by
    intro a
    cases hsub : s.subjectAnchor with
    | none => simp [Statement.bare, hsub, AnchorSet.empty]
    | some b => simp [Statement.bare, hsub, AnchorSet.empty, AnchorSet.insert, eq_comm]
  have hsubject : ∀ a, s.subjectAnchor = some a → s.anchors.has a = true := by
    intro a ha
    unfold Statement.subjectAnchor at ha
    split at ha
    · rename_i hf
      obtain ⟨b, hb, hhas⟩ := hs.anchor hf
      rw [hb] at ha
      cases ha
      exact hhas
    · cases ha
  refine AnchorSet.ext fun a => Bool.eq_iff_iff.2 ?_
  rw [has_foldl_insert, hbare, Statement.writtenAnchors, List.mem_filter, AnchorSet.mem_toList,
    decide_eq_true_eq]
  constructor
  · rintro (⟨ha, -⟩ | ha)
    · exact ha
    · exact hsubject a ha
  · intro ha
    by_cases he : s.subjectAnchor = some a
    · exact .inr he
    · exact .inl ⟨ha, fun e => he e.symm⟩

theorem intent_written {s : Statement} (hs : s.WellFormed) (h : s.writtenIntent = none) :
    s.bare.intent = s.intent := by
  unfold Statement.writtenIntent at h
  split at h
  · rename_i he
    exact he.symm
  · -- a statement without an intent is of a family that has none
    have hnone : ¬ (s.family = .ritual ∨ s.family = .companion) := by
      intro hf
      simpa [h] using hs.intent hf
    rw [h, Statement.bare]
    cases hf : s.family <;> simp_all [Intent.default]

theorem applyPairs_writtenVoice {s : Statement} {ps : List Pair}
    (hps : entriesOf ps = s.writtenVoice.toList.map fun p => ("voice", p.token)) :
    applyPairs s.bare ps = .ok { s.bare with voice := s.voice } := by
  by_cases hu : s.family = .voice ∧ s.verb = .use
  · refine applyPairs_option hps (fun _ => ?_) fun a p ha => ?_
    · simp [Statement.bare, hu]
    · simp [Statement.writtenVoice, hu] at ha
  · refine applyPairs_option hps (fun h => ?_) fun a p ha hp => ?_
    · simp_all [Statement.bare, Statement.writtenVoice]
    · rw [Statement.writtenVoice, if_neg hu] at ha
      rw [ha]
      exact Pair.apply_voice hp (if_neg hu)

theorem applyPairs_writtenLevel {s : Statement} {ps : List Pair}
    (hps : entriesOf ps = s.writtenLevel.toList.map fun l => ("bandwidth", l.name)) :
    applyPairs { s.bare with voice := s.voice } ps =
      .ok { s.bare with voice := s.voice, bandwidth := s.bandwidth } := by
  by_cases hu : s.family = .bandwidth ∧ s.verb = .set
  · refine applyPairs_option hps (fun _ => ?_) fun a p ha => ?_
    · simp [Statement.bare, hu]
    · simp [Statement.writtenLevel, hu] at ha
  · refine applyPairs_option hps (fun h => ?_) fun a p ha hp => ?_
    · simp_all [Statement.bare, Statement.writtenLevel]
    · rw [Statement.writtenLevel, if_neg hu] at ha
      rw [ha]
      exact Pair.apply_bandwidth hp (if_neg hu)

theorem applyPairs_writtenIntent {s : Statement} (hs : s.WellFormed) {ps : List Pair}
    (hps : entriesOf ps = s.writtenIntent.toList.map fun i => ("intent", i.name)) :
    applyPairs { s with intent := s.bare.intent, args := .empty } ps =
      .ok { s with args := .empty } := by
  refine applyPairs_option hps (fun h => ?_) fun i p hi hp => ?_
  · rw [intent_written hs h]
  · have hintent : s.intent = some i := by
      unfold Statement.writtenIntent at hi
      split at hi
      · cases hi
      · exact hi
    rw [Pair.apply_intent hp, ← hintent]

/-- What the outline of the canonical text builds: the pairs put in what the subject does not say,
one field after the other. -/
theorem build_outlines {o : Outline} {s : Statement} (hs : s.WellFormed) (ho : o.Outlines s) :
    o.build = .ok s := by
  obtain ⟨front, args, hfront, h, hargs⟩ := List.map_eq_append_iff.1 ho.pairs
  obtain ⟨front, intents, rfl, h, hintents⟩ := List.map_eq_append_iff.1 h
  obtain ⟨front, anchors, rfl, h, hanchors⟩ := List.map_eq_append_iff.1 h
  obtain ⟨voices, levels, rfl, hvoices, hlevels⟩ := List.map_eq_append_iff.1 h
  have anchor : applyPairs { s.bare with voice := s.voice, bandwidth := s.bandwidth } anchors =
      .ok { s with intent := s.bare.intent, args := .empty } := by
    rw [applyPairs_anchors hanchors]
    simp only [anchors_written hs]
    rfl
  have arg : applyPairs { s with args := .empty } args = .ok s :=
    applyPairs_args hargs (fun e he => (hs.keys e he).2) rfl
  rw [build, withSubject_outlines hs ho]
  show applyPairs s.bare o.pairs = .ok s
  rw [hfront, List.append_assoc, List.append_assoc, List.append_assoc,
    applyPairs_append (applyPairs_writtenVoice hvoices),
    applyPairs_append (applyPairs_writtenLevel hlevels), applyPairs_append anchor,
    applyPairs_append (applyPairs_writtenIntent hs hintents)]
  exact arg

end Outline

/-! ## Reading the canonical text -/

namespace Statement

theorem isRemark_canonical (s : Statement) : isRemark s.canonical.toList = false := by
  obtain ⟨rest, hrest⟩ : ∃ rest, s.canonical.toList = s.family.name.toList ++ rest := by
    simp [canonical, canonicalChars, Statement.keyword, RitualGate.keyword]
  rw [hrest]
  cases s.family <;> rfl

/-- The canonical text of a well-formed statement reads as the statement. -/
theorem parse_canonical {s : Statement} (h : s.WellFormed) : parse s.canonical = .ok (some s) := by
  obtain ⟨ts, hscan, hkinds⟩ := Token.scan_of_spells (spells_canonical h)
  obtain ⟨o, houtline, ho⟩ := Outline.ofTokens_kinds h hkinds
  rw [parse, isRemark_canonical, if_neg Bool.false_ne_true, hscan]
  refine bind_eq_ok_iff.2 ⟨ts, rfl, bind_eq_ok_iff.2 ⟨s, ?_, rfl⟩⟩
  exact bind_eq_ok_iff.2 ⟨o, houtline, Outline.build_outlines h ho⟩

/-- The canonical text of a statement that was read reads as the statement, and no other statement
that was read has it. -/
theorem canonical_faithful {line : String} {s : Statement} (h : parse line = .ok (some s)) :
    parse s.canonical = .ok (some s) ∧ ∀ {line' : String} {s' : Statement},
      parse line' = .ok (some s') → (s.canonical = s'.canonical ↔ s = s') := by
  have hread := parse_canonical (wellFormed_of_parse h)
  refine ⟨hread, fun {line' s'} h' => ⟨fun he => ?_, fun he => congrArg canonical he⟩⟩
  have hread' := parse_canonical (wellFormed_of_parse h')
  rw [← he, hread] at hread'
  cases hread'
  rfl

/-- An id that looks like a selector and the selector. -/
theorem canonical_faithful_latest :
    let quoted : Statement :=
      { family := .archive, verb := .access, subject := "", intent := none, anchors := .empty
        args := .ofList [("calm", "true"), ("note", ":\"")], voice := none, bandwidth := none
        cards := [.id "latest-3"] }
    let plain : Statement := { quoted with cards := [.latest 3] }
    parse "archive.access [\"latest-3\"] | note: \":\\\"\", calm" = .ok (some quoted) ∧
      parse "archive.access [latest-3] | calm:true, note:\":\\\"\"" = .ok (some plain) ∧
      parse quoted.canonical = .ok (some quoted) ∧
      (quoted.canonical = plain.canonical ↔ quoted = plain) := by
  intro quoted plain
  have hquoted : parse "archive.access [\"latest-3\"] | note: \":\\\"\", calm" =
    .ok (some quoted) := by decide +kernel
  have hplain : parse "archive.access [latest-3] | calm:true, note:\":\\\"\"" =
    .ok (some plain) := by decide +kernel
  obtain ⟨hread, hsame⟩ := canonical_faithful hquoted
  exact ⟨hquoted, hplain, hread, hsame hplain⟩

/-! ## What lines can say -/

/-- Every verb of a family with one verb is that verb. -/
theorem verb_of_allows {s : Statement} {v : Verb} (h : s.family.allows s.verb = true)
    (hv : s.family.verbs = [v]) : s.verb = v := by
  simpa [Family.allows, hv] using h

/-- A key is not empty, and none of its characters is blank, punctuation, a quote or a colon. -/
theorem isKey_iff {key : String} : IsKey key ↔
    key ≠ "" ∧ ∀ c ∈ key.toList, Text.isBlank c = false ∧ c ∉ ['"', '[', ']', ',', '|', ':'] := by
  simp only [IsKey, Token.isWordChar_eq_true_iff, List.mem_cons, List.not_mem_nil, or_false, not_or,
    and_assoc]

/-- The statements that lines say: the keyword is one of the language, the subject says what the
keyword takes from it, there is an intent where there has to be one, the keys of the arguments are
keys that have no other meaning, and the references can be named. The rest is free. -/
theorem exists_parse_iff (s : Statement) :
    (∃ line, parse line = .ok (some s)) ↔
      s.family.allows s.verb = true ∧
      (s.family = .voice ∧ s.verb = .use →
        ∃ p, Persona.ofText s.subject = .ok p ∧ s.voice = some p) ∧
      (s.family = .bandwidth ∧ s.verb = .set →
        ∃ l, Level.ofText s.subject = .ok l ∧ s.bandwidth = some l) ∧
      (s.family = .anchor → ∃ a, Anchor.ofText s.subject = .ok a ∧ s.anchors.has a = true) ∧
      (s.family = .archive ∧ s.verb = .access → s.cards ≠ []) ∧
      (s.family = .ritual ∨ s.family = .companion → s.intent.isSome = true) ∧
      (∀ e ∈ s.args.entries,
        (e.1 ≠ "" ∧ ∀ c ∈ e.1.toList,
          Text.isBlank c = false ∧ c ∉ ['"', '[', ']', ',', '|', ':']) ∧
        e.1 ∉ ["voice", "bandwidth", "anchor", "intent"]) ∧
      ∀ r ∈ s.cards, r.InRange := by
  simp only [← isKey_iff]
  constructor
  · rintro ⟨line, h⟩
    have hs := wellFormed_of_parse h
    exact ⟨hs.allows, fun hf => hs.voice hf.1, fun hf => hs.level hf.1, hs.anchor,
      fun hf => hs.access hf.1, hs.intent, hs.keys, hs.cards⟩
  · rintro ⟨allows, voice, level, anchor, access, intent, keys, cards⟩
    have verb {f : Family} {v : Verb} (hv : f.verbs = [v]) (hf : s.family = f) : s.verb = v :=
      verb_of_allows allows (hf ▸ hv)
    have hs : s.WellFormed :=
      { allows, anchor, intent, keys, cards
        voice := fun hf => voice ⟨hf, verb rfl hf⟩
        level := fun hf => level ⟨hf, verb rfl hf⟩
        access := fun hf => access ⟨hf, verb rfl hf⟩ }
    exact ⟨s.canonical, parse_canonical hs⟩

end Statement

end RitualGate
