import RitualGate.Proofs.Spelling
import RitualGate.Proofs.Vocabulary
import RitualGate.Statement.Reader

/-!
# What reading guarantees

`Statement.WellFormed` is what a statement owes to having been read from a line: its verb belongs to
its family, the subject says what the keyword takes from it, the keys of the arguments can be
written, and every card reference can be named. `wellFormed_of_parse` follows the reading: the
outline gives references in range (`inRange_of_takeCards`) and keys that can be written
(`isKey_of_takePairs`), the subject gives a well-formed statement, and each pair keeps it
well-formed (`wellFormed_apply`).
-/

namespace RitualGate

/-- Results can be compared if what they hold can. -/
instance decidableEqResult {ε α : Type} [DecidableEq ε] [DecidableEq α] :
    DecidableEq (Except ε α)
  | .ok a, .ok b => decidable_of_iff (a = b) ⟨congrArg _, Except.ok.inj⟩
  | .error e, .error f => decidable_of_iff (e = f) ⟨congrArg _, Except.error.inj⟩
  | .ok _, .error _ => isFalse nofun
  | .error _, .ok _ => isFalse nofun

/-- A computation in two parts succeeds if both parts do. -/
theorem bind_eq_ok_iff {ε α β : Type} {x : Except ε α} {f : α → Except ε β} {b : β} :
    (x >>= f) = .ok b ↔ ∃ a, x = .ok a ∧ f a = .ok b := by
  constructor
  · intro h
    cases x with
    | error e => cases h
    | ok a => exact ⟨a, rfl, h⟩
  · rintro ⟨a, rfl, h⟩
    exact h

/-- The keys of pairs that have a meaning of their own. -/
def reservedKeys : List String := ["voice", "bandwidth", "anchor", "intent"]

/-- A key that a pair can have. -/
def IsKey (key : String) : Prop :=
  key ≠ "" ∧ ∀ c ∈ key.toList, Token.isWordChar c = true ∧ c ≠ ':'

namespace Statement

/-- What a statement owes to having been read from a line. -/
structure WellFormed (s : Statement) : Prop where
  allows : s.family.allows s.verb = true
  voice : s.family = .voice → ∃ p, Persona.ofText s.subject = .ok p ∧ s.voice = some p
  level : s.family = .bandwidth → ∃ l, Level.ofText s.subject = .ok l ∧ s.bandwidth = some l
  anchor : s.family = .anchor → ∃ a, Anchor.ofText s.subject = .ok a ∧ s.anchors.has a = true
  access : s.family = .archive → s.cards ≠ []
  intent : s.family = .ritual ∨ s.family = .companion → s.intent.isSome = true
  keys : ∀ e ∈ s.args.entries, IsKey e.1 ∧ e.1 ∉ reservedKeys
  cards : ∀ r ∈ s.cards, r.InRange

end Statement

namespace Outline

/-! ## Card references -/

theorem inRange_of_cardAt {t : Token} {card : Except VocabularyError CardRef} {c : CardRef}
    (hcard : ∀ {c}, card = .ok c → c.InRange) (h : cardAt t card = .ok c) : c.InRange := by
  cases card with
  | error e => cases h
  | ok c' =>
    cases h
    exact hcard rfl

theorem inRange_of_ofWord {word : String} {c : CardRef} (h : CardRef.ofWord word = .ok c) :
    c.InRange :=
  CardRef.inRange_of_ofUnmarked h

/-- A reference in range in front of references in range, in the form in which `readCards` puts them
together. -/
theorem inRange_of_cons {t : Token} {card : Except VocabularyError CardRef} {ts rest : List Token}
    {more : Except SyntaxError (List CardRef × List Token)} {cs : List CardRef}
    (hcard : ∀ {c}, card = .ok c → c.InRange)
    (hmore : ∀ {cs rest}, more = .ok (cs, rest) → (∀ c ∈ cs, c.InRange) ∧ rest ⊆ ts)
    (h : (do
      let c ← cardAt t card
      let (cs, rest) ← more
      return (c :: cs, rest)) = .ok (cs, rest)) :
    (∀ c ∈ cs, c.InRange) ∧ rest ⊆ ts := by
  obtain ⟨c, hc, h⟩ := bind_eq_ok_iff.1 h
  obtain ⟨⟨cs', rest'⟩, hcs, h⟩ := bind_eq_ok_iff.1 h
  cases h
  obtain ⟨hall, hsub⟩ := hmore hcs
  exact ⟨List.forall_mem_cons.2 ⟨inRange_of_cardAt hcard hc, hall⟩, hsub⟩

/-- The references of a list are in range, and what is left are tokens of the line. -/
theorem inRange_of_readCards (opening : Token) :
    (∀ (first : Bool) (ts : List Token) {cs rest}, readCards opening first ts = .ok (cs, rest) →
      (∀ c ∈ cs, c.InRange) ∧ rest ⊆ ts) ∧
    (∀ (ts : List Token) {cs rest}, readCardEnd opening ts = .ok (cs, rest) →
      (∀ c ∈ cs, c.InRange) ∧ rest ⊆ ts) := by
  refine readCards.mutual_induct
    (fun first ts => ∀ {cs rest}, readCards opening first ts = .ok (cs, rest) →
      (∀ c ∈ cs, c.InRange) ∧ rest ⊆ ts)
    (fun ts => ∀ {cs rest}, readCardEnd opening ts = .ok (cs, rest) →
      (∀ c ∈ cs, c.InRange) ∧ rest ⊆ ts)
    ?_ ?_ ?_ ?_ ?_ ?_ ?_ ?_ ?_ ?_ ?_ ?_ ?_ ?_
  case refine_1 =>
    intro first cs rest h
    rw [readCards.eq_def] at h
    cases h
  case refine_2 =>
    intro t ts hk cs rest h
    rw [readCards.eq_def] at h
    simp only [hk, ↓reduceIte, Except.ok.injEq, Prod.mk.injEq] at h
    obtain ⟨rfl, rfl⟩ := h
    simp
  case refine_3 =>
    intro first t ts hk hf cs rest h
    rw [readCards.eq_def] at h
    simp [hk, hf] at h
  case refine_4 =>
    intro first t ts q hk ih cs rest h
    rw [readCards.eq_def] at h
    simp only [hk] at h
    obtain ⟨hall, hsub⟩ := inRange_of_cons CardRef.inRange_of_ofQuoted ih h
    exact ⟨hall, List.subset_cons_of_subset _ hsub⟩
  case refine_5 =>
    intro first t hk cs rest h
    rw [readCards.eq_def] at h
    simp [hk] at h
  case refine_6 =>
    intro first t u us w hu hk ih cs rest h
    rw [readCards.eq_def] at h
    simp only [hk, ↓reduceIte, hu] at h
    obtain ⟨hall, hsub⟩ := inRange_of_cons inRange_of_ofWord ih h
    exact ⟨hall, List.subset_cons_of_subset _ (List.subset_cons_of_subset _ hsub)⟩
  case refine_7 =>
    intro first t u us q hu hk ih cs rest h
    rw [readCards.eq_def] at h
    simp only [hk, ↓reduceIte, hu] at h
    obtain ⟨hall, hsub⟩ := inRange_of_cons CardRef.inRange_of_ofQuoted ih h
    exact ⟨hall, List.subset_cons_of_subset _ (List.subset_cons_of_subset _ hsub)⟩
  case refine_8 =>
    intro first t u us hw hq hk cs rest h
    rw [readCards.eq_def] at h
    cases hu : u.kind with
    | word w => exact absurd hu (hw w)
    | quoted q => exact absurd hu (hq q)
    | _ => simp [hk, hu] at h
  case refine_9 =>
    intro first t ts w hk hw ih cs rest h
    rw [readCards.eq_def] at h
    simp only [hk, hw, ↓reduceIte] at h
    obtain ⟨hall, hsub⟩ := inRange_of_cons inRange_of_ofWord ih h
    exact ⟨hall, List.subset_cons_of_subset _ hsub⟩
  case refine_10 =>
    intro first t ts hc hq hw cs rest h
    rw [readCards.eq_def] at h
    cases hk : t.kind with
    | word w => exact absurd hk (hw w)
    | quoted q => exact absurd hk (hq q)
    | closeBracket => exact absurd hk hc
    | _ => simp [hk] at h
  case refine_11 =>
    intro cs rest h
    rw [readCardEnd.eq_def] at h
    cases h
  case refine_12 =>
    intro t ts hk ih cs rest h
    rw [readCardEnd.eq_def] at h
    simp only [hk] at h
    obtain ⟨hall, hsub⟩ := ih h
    exact ⟨hall, List.subset_cons_of_subset _ hsub⟩
  case refine_13 =>
    intro t ts hk cs rest h
    rw [readCardEnd.eq_def] at h
    simp only [hk, Except.ok.injEq, Prod.mk.injEq] at h
    obtain ⟨rfl, rfl⟩ := h
    simp
  case refine_14 =>
    intro t ts hc hb cs rest h
    rw [readCardEnd.eq_def] at h
    cases hk : t.kind with
    | comma => exact absurd hk hc
    | closeBracket => exact absurd hk hb
    | _ => simp [hk] at h

theorem inRange_of_takeCards {ts rest : List Token} {cs : List CardRef}
    (h : takeCards ts = .ok (cs, rest)) : (∀ c ∈ cs, c.InRange) ∧ rest ⊆ ts := by
  cases ts with
  | nil =>
    cases h
    simp
  | cons t ts =>
    rw [takeCards] at h
    split at h
    · obtain ⟨hall, hsub⟩ := (inRange_of_readCards t).1 true ts h
      exact ⟨hall, List.subset_cons_of_subset _ hsub⟩
    · cases h
      simp

/-! ## Pairs -/

/-- The words among some tokens are runs of word characters. -/
def WordsIn (ts : List Token) : Prop :=
  ∀ t ∈ ts, ∀ w, t.kind = .word w → w ≠ [] ∧ ∀ c ∈ w, Token.isWordChar c = true

theorem WordsIn.mono {ts us : List Token} (h : WordsIn ts) (hsub : us ⊆ ts) : WordsIn us :=
  fun t ht => h t (hsub ht)

theorem segments_ne_nil (ts : List Token) : segments ts ≠ [] := by
  cases ts with
  | nil => simp [segments]
  | cons t ts =>
    rw [segments]
    split
    · simp
    · split <;> simp

theorem subset_of_mem_segments {ts : List Token} {s : Segment} (h : s ∈ segments ts) :
    s.tokens ++ s.comma.toList ⊆ ts := by
  induction ts generalizing s with
  | nil => simp_all [segments]
  | cons t ts ih =>
    rw [segments] at h
    split at h
    · rcases List.mem_cons.1 h with rfl | h
      · simp
      · exact List.subset_cons_of_subset _ (ih h)
    · split at h
      · rename_i hnil
        exact absurd hnil (segments_ne_nil ts)
      · rename_i s' ss hss
        rcases List.mem_cons.1 h with rfl | h
        · exact List.cons_subset_cons _ (ih (hss ▸ List.mem_cons_self))
        · exact List.subset_cons_of_subset _ (ih (hss ▸ List.mem_cons_of_mem _ h))

/-- The key of a pair is the part of its word before the colon, or the word. -/
theorem keyAndValue_key (w : List Char) (ts : List Token) :
    (keyAndValue w ts).1 <+: w ∧ ':' ∉ (keyAndValue w ts).1 := by
  unfold keyAndValue
  cases h : Text.splitOnce ':' w with
  | some kv =>
    obtain ⟨hw, hkey⟩ := Text.splitOnce_eq_some h
    exact ⟨⟨_, hw.symm⟩, hkey⟩
  | none =>
    have hw : ':' ∉ w := Text.splitOnce_eq_none_iff.1 h
    cases ts with
    | nil => exact ⟨List.prefix_rfl, hw⟩
    | cons t us =>
      simp only
      split <;> exact ⟨List.prefix_rfl, hw⟩

theorem isKey_of_pair? {s : Segment} {p : Pair} (hw : WordsIn s.tokens)
    (h : s.pair? = .ok (some p)) : IsKey p.key := by
  rcases hs : s.tokens with _ | ⟨t, ts⟩
  · simp only [Segment.pair?, hs] at h
    cases hc : s.comma <;> simp [hc] at h
  · cases hk : t.kind with
    | word w =>
      simp only [Segment.pair?, hs, hk] at h
      split at h
      · cases h
      · rename_i hne
        split at h
        · obtain ⟨hkey, hcolon⟩ := keyAndValue_key w ts
          obtain ⟨-, hword⟩ := hw t (hs ▸ List.mem_cons_self) w hk
          cases h
          refine ⟨by simpa using hne, fun c hc => ?_⟩
          rw [String.toList_ofList] at hc
          exact ⟨hword c (hkey.subset hc), fun e => hcolon (e ▸ hc)⟩
        · cases h
    | _ => simp [Segment.pair?, hs, hk] at h

theorem isKey_of_pairsOf {ss : List Segment} {ps : List Pair}
    (hw : ∀ s ∈ ss, WordsIn s.tokens) (h : pairsOf ss = .ok ps) : ∀ p ∈ ps, IsKey p.key := by
  induction ss generalizing ps with
  | nil =>
    cases h
    simp
  | cons s ss ih =>
    rw [pairsOf] at h
    obtain ⟨p, hp, h⟩ := bind_eq_ok_iff.1 h
    obtain ⟨qs, hqs, h⟩ := bind_eq_ok_iff.1 h
    cases h
    obtain ⟨hs, hss⟩ := List.forall_mem_cons.1 hw
    intro q hq
    rcases List.mem_append.1 hq with hq | hq
    · obtain rfl := Option.mem_toList.1 hq
      exact isKey_of_pair? hs hp
    · exact ih hss hqs q hq

theorem isKey_of_takePairs {ts : List Token} {ps : List Pair} (hw : WordsIn ts)
    (h : takePairs ts = .ok ps) : ∀ p ∈ ps, IsKey p.key := by
  cases ts with
  | nil =>
    cases h
    simp
  | cons t ts =>
    rw [takePairs, readPairs] at h
    split at h
    · split at h
      · cases h
      · refine isKey_of_pairsOf (fun s hs => hw.mono ?_) h
        have hsub := List.append_subset.1 (subset_of_mem_segments hs)
        exact List.subset_cons_of_subset _ hsub.1
    · cases h

/-! ## Outlines -/

theorem allows_of_keywordOf {head : Token} {f : Family} {v : Verb}
    (h : keywordOf head = .ok (f, v)) : f.allows v = true := by
  unfold keywordOf at h
  cases hk : head.kind with
  | word cs =>
    simp only [hk] at h
    split at h
    · cases h
    · split at h
      · cases h
      · split at h
        · cases h
        · rename_i hv
          cases h
          exact (Option.filter_eq_some_iff.1 hv).2
  | _ => simp [hk] at h

/-- What the reading of a line has found out about its parts. -/
structure Sound (o : Outline) : Prop where
  allows : o.family.allows o.verb = true
  cards : ∀ r ∈ o.cards, r.InRange
  keys : ∀ p ∈ o.pairs, IsKey p.key

theorem takeSubject_subset (ts : List Token) : (takeSubject ts).2 ⊆ ts := by
  cases ts with
  | nil => simp [takeSubject]
  | cons t ts =>
    rw [takeSubject]
    split <;> simp

theorem sound_of_ofTokens {ts : List Token} {o : Outline} (hw : WordsIn ts)
    (h : ofTokens ts = .ok o) : o.Sound := by
  cases ts with
  | nil => cases h
  | cons head ts =>
    rw [ofTokens] at h
    obtain ⟨⟨f, v⟩, hk, h⟩ := bind_eq_ok_iff.1 h
    obtain ⟨⟨cs, rest⟩, hc, h⟩ := bind_eq_ok_iff.1 h
    obtain ⟨ps, hp, h⟩ := bind_eq_ok_iff.1 h
    cases h
    obtain ⟨hcards, hsub⟩ := inRange_of_takeCards hc
    refine ⟨allows_of_keywordOf hk, hcards, isKey_of_takePairs (hw.mono ?_) hp⟩
    exact List.subset_cons_of_subset _ (List.Subset.trans hsub (takeSubject_subset ts))

/-! ## Subjects -/

/-- The subject of a line was there and says something of the vocabulary. -/
theorem ofText_of_subjectAs {α : Type} {o : Outline} {what : String}
    {ofText : String → Except VocabularyError α} {a : α} (h : o.subjectAs what ofText = .ok a) :
    ofText o.base.subject = .ok a := by
  rw [subjectAs] at h
  obtain ⟨⟨text, t⟩, hs, h⟩ := bind_eq_ok_iff.1 h
  have hbase : o.base.subject = text := by
    unfold requireSubject at hs
    cases ho : o.subject with
    | none => simp [ho] at hs
    | some s =>
      simp only [ho, Except.ok.injEq] at hs
      simp [base, ho, hs]
  rw [hbase]
  simp only at h
  cases ht : ofText text with
  | ok b =>
    rw [ht] at h
    cases h
    rfl
  | error e =>
    rw [ht] at h
    cases h

theorem isSome_default {f : Family} {subject : String} (h : f = .ritual ∨ f = .companion) :
    (Intent.default f subject).isSome = true := by
  rcases h with rfl | rfl <;> rfl

theorem wellFormed_withSubject {o : Outline} {s : Statement} (ho : o.Sound)
    (h : o.withSubject = .ok s) : s.WellFormed := by
  have allows := ho.allows
  have keys : ∀ e ∈ o.base.args.entries, IsKey e.1 ∧ e.1 ∉ reservedKeys := nofun
  unfold withSubject at h
  split at h
  case h_1 hf hv =>
    obtain ⟨p, hp, h⟩ := bind_eq_ok_iff.1 h
    cases h
    have voice := ofText_of_subjectAs hp
    refine ⟨allows, fun _ => ⟨p, voice, rfl⟩, ?_, ?_, ?_, ?_, keys, ho.cards⟩ <;> simp [base, hf]
  case h_2 hf hv =>
    obtain ⟨l, hl, h⟩ := bind_eq_ok_iff.1 h
    cases h
    have level := ofText_of_subjectAs hl
    refine ⟨allows, ?_, fun _ => ⟨l, level, rfl⟩, ?_, ?_, ?_, keys, ho.cards⟩ <;> simp [base, hf]
  case h_3 hf =>
    obtain ⟨a, ha, h⟩ := bind_eq_ok_iff.1 h
    cases h
    have anchor := ofText_of_subjectAs ha
    have has : (AnchorSet.empty.insert a).has a = true := by simp [AnchorSet.insert]
    refine ⟨allows, ?_, ?_, fun _ => ⟨a, anchor, has⟩, ?_, ?_, keys, ho.cards⟩ <;> simp [base, hf]
  case h_4 hf hv =>
    split at h
    · cases h
    · rename_i hne
      cases h
      refine ⟨allows, ?_, ?_, ?_, fun _ => hne, ?_, keys, ho.cards⟩ <;> simp [base, hf]
  case h_5 hanchor hvoice hlevel haccess =>
    cases h
    -- a voice or bandwidth statement, or a look into the archive, would have been one of the others
    have other : ∀ {f : Family} {v : Verb}, f.verbs = [v] → (o.family = f → o.verb = v → False) →
        o.family ≠ f := by
      rintro f v hverbs hne rfl
      refine hne rfl ?_
      simpa [Family.allows, hverbs] using allows
    refine ⟨allows, fun e => absurd e (other rfl hvoice), fun e => absurd e (other rfl hlevel),
      fun e => (hanchor e).elim, fun e => absurd e (other rfl haccess), isSome_default, keys,
      ho.cards⟩

end Outline

/-! ## Pairs and statements -/

namespace Pair

/-- What a pair can do to a statement. -/
theorem apply_cases {s s' : Statement} {p : Pair} (h : p.apply s = .ok s') :
    (p.key = "voice" ∧ ∃ persona, Persona.ofText p.value = .ok persona ∧
      (∀ q, s.voice = some q → q = persona) ∧ s' = { s with voice := some persona }) ∨
    (p.key = "bandwidth" ∧ ∃ level, Level.ofText p.value = .ok level ∧
      (∀ l, s.bandwidth = some l → l = level) ∧ s' = { s with bandwidth := some level }) ∨
    (p.key = "anchor" ∧ ∃ a, Anchor.ofText p.value = .ok a ∧
      s' = { s with anchors := s.anchors.insert a }) ∨
    (p.key = "intent" ∧ ∃ i, Intent.ofText p.value = .ok i ∧ s' = { s with intent := some i }) ∨
    (p.key ∉ reservedKeys ∧ s.args.contains p.key = false ∧
      s' = { s with args := s.args.insert p.key p.value }) := by
  have value {α : Type} {ofText : String → Except VocabularyError α} {a : α}
      (h : p.valueAs ofText = .ok a) : ofText p.value = .ok a := by
    unfold valueAs at h
    cases hv : ofText p.value <;> simp_all
  have same {α : Type} [DecidableEq α] {o : Option α} {a : α} (h : ¬ o.any (· != a) = true) :
      ∀ b, o = some b → b = a := by
    rintro b rfl
    simpa using h
  unfold apply at h
  split at h
  · rename_i hk
    obtain ⟨persona, hp, h⟩ := bind_eq_ok_iff.1 h
    split at h
    · cases h
    · rename_i hany
      cases h
      exact .inl ⟨hk, persona, value hp, same hany, rfl⟩
  · rename_i hvoice
    split at h
    · rename_i hk
      obtain ⟨level, hl, h⟩ := bind_eq_ok_iff.1 h
      split at h
      · cases h
      · rename_i hany
        cases h
        exact .inr (.inl ⟨hk, level, value hl, same hany, rfl⟩)
    · rename_i hlevel
      split at h
      · rename_i hk
        obtain ⟨a, ha, h⟩ := bind_eq_ok_iff.1 h
        cases h
        exact .inr (.inr (.inl ⟨hk, a, value ha, rfl⟩))
      · rename_i hanchor
        split at h
        · rename_i hk
          obtain ⟨i, hi, h⟩ := bind_eq_ok_iff.1 h
          cases h
          exact .inr (.inr (.inr (.inl ⟨hk, i, value hi, rfl⟩)))
        · rename_i hintent
          split at h
          · cases h
          · rename_i hnew
            cases h
            have hkey : p.key ∉ reservedKeys := by
              simp only [reservedKeys, List.mem_cons, List.not_mem_nil, or_false, not_or]
              exact ⟨hvoice, hlevel, hanchor, hintent⟩
            exact .inr (.inr (.inr (.inr ⟨hkey, Bool.eq_false_iff.2 hnew, rfl⟩)))

/-- A pair keeps a statement well-formed. -/
theorem wellFormed_apply {s s' : Statement} {p : Pair} (hs : s.WellFormed) (hk : IsKey p.key)
    (h : p.apply s = .ok s') : s'.WellFormed := by
  rcases apply_cases h with ⟨-, persona, hp, hsame, rfl⟩ | ⟨-, level, hl, hsame, rfl⟩ |
    ⟨-, a, ha, rfl⟩ | ⟨-, i, hi, rfl⟩ | ⟨hkey, -, rfl⟩
  · refine ⟨hs.allows, fun hf => ?_, hs.level, hs.anchor, hs.access, hs.intent, hs.keys, hs.cards⟩
    obtain ⟨q, hq, hvoice⟩ := hs.voice hf
    exact ⟨q, hq, by rw [hsame q hvoice]⟩
  · refine ⟨hs.allows, hs.voice, fun hf => ?_, hs.anchor, hs.access, hs.intent, hs.keys, hs.cards⟩
    obtain ⟨l, hl, hlevel⟩ := hs.level hf
    exact ⟨l, hl, by rw [hsame l hlevel]⟩
  · refine ⟨hs.allows, hs.voice, hs.level, fun hf => ?_, hs.access, hs.intent, hs.keys, hs.cards⟩
    obtain ⟨b, hb, hhas⟩ := hs.anchor hf
    exact ⟨b, hb, by simp [AnchorSet.insert, hhas]⟩
  · exact ⟨hs.allows, hs.voice, hs.level, hs.anchor, hs.access, fun _ => rfl, hs.keys, hs.cards⟩
  · refine ⟨hs.allows, hs.voice, hs.level, hs.anchor, hs.access, hs.intent, fun e he => ?_, hs.cards⟩
    rcases mem_insertEntry he with rfl | he
    · exact ⟨hk, hkey⟩
    · exact hs.keys e he

end Pair

namespace Outline

theorem wellFormed_applyPairs {s s' : Statement} {ps : List Pair} (hs : s.WellFormed)
    (hk : ∀ p ∈ ps, IsKey p.key) (h : applyPairs s ps = .ok s') : s'.WellFormed := by
  induction ps generalizing s with
  | nil =>
    cases h
    exact hs
  | cons p ps ih =>
    rw [applyPairs] at h
    obtain ⟨t, ht, h⟩ := bind_eq_ok_iff.1 h
    obtain ⟨hp, hps⟩ := List.forall_mem_cons.1 hk
    exact ih (Pair.wellFormed_apply hs hp ht) hps h

theorem wellFormed_build {o : Outline} {s : Statement} (ho : o.Sound) (h : o.build = .ok s) :
    s.WellFormed := by
  rw [build] at h
  obtain ⟨t, ht, h⟩ := bind_eq_ok_iff.1 h
  exact wellFormed_applyPairs (wellFormed_withSubject ho ht) ho.keys h

end Outline

namespace Statement

/-- A line that says a statement has tokens, and they make the statement. -/
theorem tokens_of_parse {line : String} {s : Statement} (h : parse line = .ok (some s)) :
    ∃ ts, Token.scan line = .ok ts ∧ ofTokens ts = .ok s := by
  rw [parse] at h
  split at h
  · cases h
  · obtain ⟨ts, hts, h⟩ := bind_eq_ok_iff.1 h
    obtain ⟨t, ht, h⟩ := bind_eq_ok_iff.1 h
    cases h
    exact ⟨ts, hts, ht⟩

/-- A statement that was read from a line is well-formed. -/
theorem wellFormed_of_parse {line : String} {s : Statement} (h : parse line = .ok (some s)) :
    s.WellFormed := by
  obtain ⟨ts, hts, hs⟩ := tokens_of_parse h
  obtain ⟨o, ho, hbuild⟩ := bind_eq_ok_iff.1 hs
  exact Outline.wellFormed_build (Outline.sound_of_ofTokens (Token.words_of_scan hts) ho) hbuild

end Statement

end RitualGate
