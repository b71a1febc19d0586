import Mathlib.Data.List.Forall2
import RitualGate.Proofs.Grammar

/-!
# Reading is deriving

A derivation says what its line says (`Grammar.Line.statement?`): its items are read as references
to cards, and the statement is built from the parts. Tokens are read as a statement exactly if they
have a derivation that says it (`ofTokens_eq_ok_iff_derives`).

This is shown for each function that reads, in both directions. What was read has a derivation:
`readCards_cases` says what a list of references can begin with, and from it come
`exists_items_of_readCardEnd` for the rest of the list, `exists_tail_of_pairsOf` for the pairs and
`exists_line_of_ofTokens` for the line. What has a derivation is read: `readCards_item`,
`readCardEnd_items`, `pairsOf_tail` and `ofTokens_line`. The columns of tokens matter to where
errors lie and to nothing else (`Alike`, `Agrees.build_eq`).
-/

namespace RitualGate

namespace Grammar

/-! ## What a derivation says -/

/-- The text of a piece. -/
def Piece.chars : Piece → List Char
  | word cs => cs
  | quoted cs => cs

/-- The reference of an item: a word is read, a quoted text is an id. -/
def Item.card : Item → Except VocabularyError CardRef
  | word w _ => CardRef.ofWord (String.ofList w)
  | quoted q _ => .ok (.id (String.ofList q))
  | markedWord w => CardRef.ofWord (String.ofList w)
  | markedQuoted q _ => .ok (.id (String.ofList q))

/-- The items of a list of cards. -/
def CardList.toList : CardList → List Item
  | empty => []
  | items first more => first :: more

/-- The key of a pair. -/
def Binding.key : Binding → List Char
  | joined key _ _ => key.chars
  | ended key _ => key.chars
  | apart key _ _ => key.chars
  | parted key _ => key.chars
  | flag key => key.chars

/-- The value of a pair. Behind a colon it may be missing, and then it is empty; a key without a
colon is true. -/
def Binding.value : Binding → List Char
  | joined _ value _ => value
  | ended _ value => value.elim [] Piece.chars
  | apart _ value _ => value
  | parted _ value => value.elim [] Piece.chars
  | flag _ => "true".toList

/-- A pair as a key and a value. -/
def Binding.toPair (b : Binding) : String × String :=
  (String.ofList b.key, String.ofList b.value)

/-- The pairs of a tail. -/
def Tail.toList (t : Tail) : List Binding :=
  t.first :: t.more

namespace Line

/-- The items of a line. -/
def items (l : Line) : List Item :=
  l.cards.elim [] CardList.toList

/-- The pairs of a line. -/
def bindings (l : Line) : List Binding :=
  l.tail.elim [] Tail.toList

/-- The parts of a line, with references for its items. Where the tokens stand is of no account. -/
def outline (l : Line) (cards : List CardRef) : Outline where
  head := ⟨.word (keyword l.family l.verb).toList, 1⟩
  family := l.family
  verb := l.verb
  subject := l.subject.map fun q => (String.ofList q, ⟨.quoted q, 1⟩)
  cards := cards
  pairs := l.bindings.map fun b => ⟨b.toPair.1, b.toPair.2, 1⟩

/-- The statement of a line, if its items are references and its parts go together. -/
def statement? (l : Line) : Option Statement := do
  let cards ← l.items.mapM fun i => i.card.toOption
  (l.outline cards).build.toOption

end Line

end Grammar

open Grammar

theorem toOption_eq_some_iff {ε α : Type} {x : Except ε α} {a : α} :
    x.toOption = some a ↔ x = .ok a := by
  cases x <;> simp [Except.toOption]

theorem toOption_bind {ε α β : Type} (x : Except ε α) (f : α → Except ε β) :
    (x >>= f).toOption = x.toOption.bind fun a => (f a).toOption := by
  cases x <;> rfl

/-- `Read is cards`: the items are read as these references. -/
def Grammar.Read (is : List Item) (cards : List CardRef) : Prop :=
  List.Forall₂ (fun i c => i.card = .ok c) is cards

theorem mapM_card_eq_some_iff {is : List Item} {cards : List CardRef} :
    is.mapM (fun i => i.card.toOption) = some cards ↔ Read is cards := by
  unfold Read
  induction is generalizing cards with
  | nil => cases cards <;> simp
  | cons i is ih =>
    cases cards with
    | nil => simp [Option.bind_eq_some_iff]
    | cons c cards => simp [Option.bind_eq_some_iff, toOption_eq_some_iff, ih]

namespace Outline

/-! ## Card references -/

theorem cardAt_eq_ok_iff {t : Token} {card : Except VocabularyError CardRef} {c : CardRef} :
    cardAt t card = .ok c ↔ card = .ok c := by
  cases card <;> simp [cardAt]

theorem ofQuoted_eq_ok_iff {q : List Char} {c : CardRef} :
    CardRef.ofQuoted (String.ofList q) = .ok c ↔ q ≠ [] ∧ .id (String.ofList q) = c := by
  by_cases hq : q = [] <;> simp [CardRef.ofQuoted, hq]

/-- An item is read as its reference, and what follows it is what follows a reference. -/
theorem readCards_item {opening : Token} {i : Item} {c : CardRef} (hc : i.card = .ok c)
    {used ts : List Token} (hused : used.map Token.kind = i.kinds) (first : Bool) :
    readCards opening first (used ++ ts) = (do
      let (cs, rest) ← readCardEnd opening ts
      return (c :: cs, rest)) := by
  have quoted {q : List Char} (hq : q ≠ []) :
      CardRef.ofQuoted (String.ofList q) = .ok (.id (String.ofList q)) :=
    ofQuoted_eq_ok_iff.2 ⟨hq, rfl⟩
  cases i with
  | word w hw =>
    obtain ⟨t, rfl, hk⟩ := List.map_eq_singleton_iff.1 hused
    have hc : CardRef.ofWord (String.ofList w) = .ok c := hc
    rw [List.singleton_append, readCards.eq_def]
    simp only [hk, hw, ↓reduceIte, hc, cardAt]
    rfl
  | quoted q hq =>
    obtain ⟨t, rfl, hk⟩ := List.map_eq_singleton_iff.1 hused
    cases hc
    rw [List.singleton_append, readCards.eq_def]
    simp only [hk, quoted hq, cardAt]
    rfl
  | markedWord w =>
    obtain ⟨t, us, rfl, hk, hus⟩ := List.map_eq_cons_iff.1 hused
    obtain ⟨u, rfl, hu⟩ := List.map_eq_singleton_iff.1 hus
    have hc : CardRef.ofWord (String.ofList w) = .ok c := hc
    rw [List.cons_append, List.singleton_append, readCards.eq_def]
    simp only [hk, ↓reduceIte, hu, hc, cardAt]
    rfl
  | markedQuoted q hq =>
    obtain ⟨t, us, rfl, hk, hus⟩ := List.map_eq_cons_iff.1 hused
    obtain ⟨u, rfl, hu⟩ := List.map_eq_singleton_iff.1 hus
    cases hc
    rw [List.cons_append, List.singleton_append, readCards.eq_def]
    simp only [hk, ↓reduceIte, hu, quoted hq, cardAt]
    rfl

/-- A reference in front of those that follow it, in the form in which `readCards` puts them
together. -/
theorem exists_card_of_cons {opening t : Token} {card : Except VocabularyError CardRef}
    {us rest : List Token} {cards : List CardRef}
    (h : (do
      let c ← cardAt t card
      let (cs, rest) ← readCardEnd opening us
      return (c :: cs, rest)) = .ok (cards, rest)) :
    ∃ c cs, card = .ok c ∧ readCardEnd opening us = .ok (cs, rest) ∧ cards = c :: cs := by
  obtain ⟨c, hc, h⟩ := bind_eq_ok_iff.1 h
  obtain ⟨⟨cs, rest'⟩, hcs, h⟩ := bind_eq_ok_iff.1 h
  cases h
  exact ⟨c, cs, cardAt_eq_ok_iff.1 hc, hcs, rfl⟩

/-- A list of references that was read ends at once, or it begins with an item. -/
theorem readCards_cases {opening : Token} {first : Bool} {ts rest : List Token}
    {cards : List CardRef} (h : readCards opening first ts = .ok (cards, rest)) :
    (first = true ∧ cards = [] ∧ ts.map Token.kind = .closeBracket :: rest.map Token.kind) ∨
    ∃ (i : Item) (us : List Token), ts.map Token.kind = i.kinds ++ us.map Token.kind ∧
      ∃ c cs, i.card = .ok c ∧ readCardEnd opening us = .ok (cs, rest) ∧ cards = c :: cs := by
  rw [readCards.eq_def] at h
  cases ts with
  | nil => cases h
  | cons t ts =>
    cases hk : t.kind with
    | closeBracket =>
      simp only [hk] at h
      split at h
      · rename_i hfirst
        cases h
        exact .inl ⟨hfirst, rfl, by simp [hk]⟩
      · cases h
    | quoted q =>
      simp only [hk] at h
      obtain ⟨c, cs, hc, hcs, rfl⟩ := exists_card_of_cons h
      obtain ⟨hq, rfl⟩ := ofQuoted_eq_ok_iff.1 hc
      exact .inr ⟨.quoted q hq, ts, by simp [hk, Item.kinds], _, cs, rfl, hcs, rfl⟩
    | word w =>
      simp only [hk] at h
      split at h
      · rename_i hw
        cases ts with
        | nil => cases h
        | cons u us =>
          cases hu : u.kind with
          | word w' =>
            simp only [hu] at h
            exact .inr ⟨.markedWord w', us, by simp [hk, hu, hw, Item.kinds],
              exists_card_of_cons h⟩
          | quoted q =>
            simp only [hu] at h
            obtain ⟨c, cs, hc, hcs, rfl⟩ := exists_card_of_cons h
            obtain ⟨hq, rfl⟩ := ofQuoted_eq_ok_iff.1 hc
            exact .inr ⟨.markedQuoted q hq, us, by simp [hk, hu, hw, Item.kinds], _, cs, rfl, hcs,
              rfl⟩
          | _ => simp [hu] at h
      · rename_i hw
        exact .inr ⟨.word w hw, ts, by simp [hk, Item.kinds], exists_card_of_cons h⟩
    | _ => simp [hk] at h

theorem readCardEnd_cases {opening : Token} {ts rest : List Token} {cards : List CardRef}
    (h : readCardEnd opening ts = .ok (cards, rest)) :
    ∃ t us, ts = t :: us ∧ ((t.kind = .closeBracket ∧ cards = [] ∧ rest = us) ∨
      (t.kind = .comma ∧ readCards opening false us = .ok (cards, rest))) := by
  rw [readCardEnd.eq_def] at h
  cases ts with
  | nil => cases h
  | cons t us =>
    refine ⟨t, us, rfl, ?_⟩
    cases hk : t.kind with
    | closeBracket =>
      simp only [hk, Except.ok.injEq, Prod.mk.injEq] at h
      exact .inl ⟨rfl, h.1.symm, h.2.symm⟩
    | comma => exact .inr ⟨rfl, by simpa only [hk] using h⟩
    | _ => simp [hk] at h

/-- What was read behind a reference is derived from items behind commas. -/
theorem exists_items_of_readCardEnd {opening : Token} {ts rest : List Token}
    {cards : List CardRef} (h : readCardEnd opening ts = .ok (cards, rest)) :
    ∃ is, Read is cards ∧
      ts.map Token.kind = moreKinds Item.kinds is ++ .closeBracket :: rest.map Token.kind := by
  -- each item takes at least its comma
  induction hn : ts.length using Nat.strongRecOn generalizing ts cards with
  | _ n ih =>
    obtain ⟨t, us, rfl, ⟨hk, rfl, rfl⟩ | ⟨hk, hus⟩⟩ := readCardEnd_cases h
    · exact ⟨[], .nil, by simp [moreKinds, hk]⟩
    · obtain ⟨hfirst, -, -⟩ | ⟨i, vs, hkinds, c, cs, hc, hvs, rfl⟩ := readCards_cases hus
      · cases hfirst
      · have hlength := congrArg List.length hkinds
        simp only [List.length_map, List.length_append] at hlength
        obtain ⟨is, his, htail⟩ := ih vs.length (by simp at hn; omega) hvs rfl
        exact ⟨i :: is, .cons hc his, by simp [moreKinds, hk, hkinds, htail]⟩

/-- Items behind commas are read as references. -/
theorem readCardEnd_items (opening : Token) {is : List Item} {cards : List CardRef}
    (hread : Read is cards) {ts : List Token} {ks : List TokenKind}
    (hts : ts.map Token.kind = moreKinds Item.kinds is ++ .closeBracket :: ks) :
    ∃ rest, readCardEnd opening ts = .ok (cards, rest) ∧ rest.map Token.kind = ks := by
  induction hread generalizing ts with
  | nil =>
    obtain ⟨t, rest, rfl, hk, hrest⟩ := List.map_eq_cons_iff.1 hts
    refine ⟨rest, ?_, hrest⟩
    rw [readCardEnd.eq_def]
    simp only [hk]
  | @cons i c is cs hc _ ih =>
    simp only [moreKinds, List.flatMap_cons, List.cons_append, List.append_assoc] at hts
    obtain ⟨t, us, rfl, hk, hus⟩ := List.map_eq_cons_iff.1 hts
    obtain ⟨used, more, rfl, hused, hmore⟩ := List.map_eq_append_iff.1 hus
    obtain ⟨rest, hread, hrest⟩ := ih hmore
    refine ⟨rest, ?_, hrest⟩
    rw [readCardEnd.eq_def]
    simp only [hk, readCards_item hc hused, hread]
    rfl

/-- What was read as the cards of a line is derived from a list of cards, or there is none. -/
theorem exists_cards_of_takeCards {ts rest : List Token} {cards : List CardRef}
    (h : takeCards ts = .ok (cards, rest)) :
    ∃ l : Option CardList, Read (l.elim [] CardList.toList) cards ∧
      ts.map Token.kind = l.elim [] CardList.kinds ++ rest.map Token.kind := by
  cases ts with
  | nil =>
    cases h
    exact ⟨none, .nil, rfl⟩
  | cons t ts =>
    rw [takeCards] at h
    split at h
    · rename_i hk
      obtain ⟨-, rfl, hts⟩ | ⟨i, us, hts, c, cs, hc, hus, rfl⟩ := readCards_cases h
      · exact ⟨some .empty, .nil, by simp [CardList.kinds, hk, hts]⟩
      · obtain ⟨is, his, htail⟩ := exists_items_of_readCardEnd hus
        exact ⟨some (.items i is), .cons hc his, by simp [CardList.kinds, hk, hts, htail]⟩
    · cases h
      exact ⟨none, .nil, rfl⟩

/-- A list of cards is read as its references. -/
theorem takeCards_cards {l : Option CardList} {cards : List CardRef}
    (hread : Read (l.elim [] CardList.toList) cards) {ts : List Token} {ks : List TokenKind}
    (hks : ks.head? ≠ some .openBracket)
    (hts : ts.map Token.kind = l.elim [] CardList.kinds ++ ks) :
    ∃ rest, takeCards ts = .ok (cards, rest) ∧ rest.map Token.kind = ks := by
  cases l with
  | none =>
    cases hread
    refine ⟨ts, ?_, hts⟩
    cases ts with
    | nil => rfl
    | cons t ts =>
      rw [takeCards, if_neg]
      intro hk
      refine hks ?_
      rw [← show _ = ks from hts, List.map_cons, List.head?_cons, hk]
  | some l =>
    cases l with
    | empty =>
      cases hread
      obtain ⟨t, us, rfl, hk, hus⟩ := List.map_eq_cons_iff.1 hts
      obtain ⟨u, rest, rfl, hu, hrest⟩ := List.map_eq_cons_iff.1 hus
      refine ⟨rest, ?_, hrest⟩
      rw [takeCards, if_pos hk, readCards.eq_def]
      simp only [hu, ↓reduceIte]
    | items i is =>
      obtain ⟨c, cs, hc, his, rfl⟩ := List.forall₂_cons_left_iff.1 hread
      simp only [Option.elim, CardList.kinds, List.cons_append, List.append_assoc] at hts
      obtain ⟨t, us, rfl, hk, hus⟩ := List.map_eq_cons_iff.1 hts
      obtain ⟨used, more, rfl, hused, hmore⟩ := List.map_eq_append_iff.1 hus
      obtain ⟨rest, hend, hrest⟩ := readCardEnd_items t his hmore
      refine ⟨rest, ?_, hrest⟩
      rw [takeCards, if_pos hk, readCards_item hc hused, hend]
      rfl

/-! ## Pairs -/

theorem valueAfter_of_ne_nil {rest : List Char} (h : rest ≠ []) (ts : List Token) :
    valueAfter rest ts = (rest, ts) :=
  if_neg h

/-- Behind a colon at the end of a word, a piece is the value. -/
theorem valueAfter_piece {p : Option Piece} {ts : List Token}
    (h : ts.map Token.kind = (p.map Piece.kind).toList) :
    valueAfter [] ts = (p.elim [] Piece.chars, []) := by
  cases p with
  | none =>
    obtain rfl := List.map_eq_nil_iff.1 h
    rfl
  | some p =>
    obtain ⟨t, rfl, hk⟩ := List.map_eq_singleton_iff.1 h
    cases p <;> simp [valueAfter, hk, Piece.kind, Piece.chars]

theorem exists_piece_of_valueAfter {value : List Char} {ts : List Token}
    (h : valueAfter [] ts = (value, [])) :
    ∃ p : Option Piece, ts.map Token.kind = (p.map Piece.kind).toList ∧
      value = p.elim [] Piece.chars := by
  cases ts with
  | nil =>
    cases h
    exact ⟨none, rfl, rfl⟩
  | cons t ts =>
    cases hk : t.kind with
    | word w =>
      simp only [valueAfter, ↓reduceIte, hk, Prod.mk.injEq] at h
      exact ⟨some (.word w), by simp [hk, h.2, Piece.kind], h.1.symm⟩
    | quoted q =>
      simp only [valueAfter, ↓reduceIte, hk, Prod.mk.injEq] at h
      exact ⟨some (.quoted q), by simp [hk, h.2, Piece.kind], h.1.symm⟩
    | _ => simp [valueAfter, hk] at h

theorem keyAndValue_joined (k : Key) (rest : List Char) (ts : List Token) :
    keyAndValue (k.chars ++ ':' :: rest) ts = (k.chars, valueAfter rest ts) := by
  simp only [keyAndValue, Text.splitOnce_append k.colon_notMem]

theorem keyAndValue_apart (k : Key) {t : Token} {rest : List Char}
    (ht : t.kind = .word (':' :: rest)) (ts : List Token) :
    keyAndValue k.chars (t :: ts) = (k.chars, valueAfter rest ts) := by
  have hkey : Text.splitOnce ':' k.chars = none := Text.splitOnce_eq_none_iff.2 k.colon_notMem
  simp only [keyAndValue, hkey, ht]

/-- A word and what follows it are read as the pair that they are derived from. -/
theorem keyAndValue_binding {b : Binding} {w : List Char} {ts : List Token}
    (h : b.kinds = .word w :: ts.map Token.kind) : keyAndValue w ts = (b.key, b.value, []) := by
  cases b with
  | joined k v hv =>
    obtain ⟨hw, hts⟩ := List.cons.inj h
    cases hw
    rw [List.map_eq_nil_iff.1 hts.symm, keyAndValue_joined, valueAfter_of_ne_nil hv]
    rfl
  | ended k p =>
    obtain ⟨hw, hts⟩ := List.cons.inj h
    cases hw
    rw [keyAndValue_joined, valueAfter_piece hts.symm]
    rfl
  | apart k v hv =>
    obtain ⟨hw, hts⟩ := List.cons.inj h
    cases hw
    obtain ⟨t, rfl, hk⟩ := List.map_eq_singleton_iff.1 hts.symm
    rw [keyAndValue_apart k hk, valueAfter_of_ne_nil hv]
    rfl
  | parted k p =>
    obtain ⟨hw, hts⟩ := List.cons.inj h
    cases hw
    obtain ⟨t, us, rfl, hk, hus⟩ := List.map_eq_cons_iff.1 hts.symm
    rw [keyAndValue_apart k hk, valueAfter_piece hus]
    rfl
  | flag k =>
    obtain ⟨hw, hts⟩ := List.cons.inj h
    cases hw
    rw [List.map_eq_nil_iff.1 hts.symm, keyAndValue,
      Text.splitOnce_eq_none_iff.2 k.colon_notMem]
    rfl

/-- A word and what follows it, if they are read as a pair with a key, are derived from one. -/
theorem exists_binding_of_keyAndValue {w key value : List Char} {ts : List Token}
    (h : keyAndValue w ts = (key, value, [])) (hne : key ≠ []) :
    ∃ b : Binding, b.kinds = .word w :: ts.map Token.kind ∧ b.key = key ∧ b.value = value := by
  unfold keyAndValue at h
  cases hw : Text.splitOnce ':' w with
  | some kv =>
    obtain ⟨k, rest⟩ := kv
    obtain ⟨rfl, hcolon⟩ := Text.splitOnce_eq_some hw
    simp only [hw, Prod.mk.injEq] at h
    obtain ⟨rfl, h⟩ := h
    by_cases hrest : rest = []
    · subst hrest
      obtain ⟨p, hts, rfl⟩ := exists_piece_of_valueAfter h
      exact ⟨.ended ⟨k, hne, hcolon⟩ p, by rw [hts]; rfl, rfl, rfl⟩
    · cases (valueAfter_of_ne_nil hrest ts).symm.trans h
      exact ⟨.joined ⟨k, hne, hcolon⟩ value hrest, rfl, rfl, rfl⟩
  | none =>
    have hcolon : ':' ∉ w := Text.splitOnce_eq_none_iff.1 hw
    simp only [hw] at h
    cases ts with
    | nil =>
      cases h
      exact ⟨.flag ⟨w, hne, hcolon⟩, rfl, rfl, rfl⟩
    | cons t us =>
      simp only at h
      split at h
      · rename_i rest hk
        rw [Prod.mk.injEq] at h
        obtain ⟨rfl, h⟩ := h
        by_cases hrest : rest = []
        · subst hrest
          obtain ⟨p, hts, rfl⟩ := exists_piece_of_valueAfter h
          exact ⟨.parted ⟨w, hne, hcolon⟩ p, by simp [Binding.kinds, hk, hts], rfl, rfl⟩
        · cases (valueAfter_of_ne_nil hrest us).symm.trans h
          exact ⟨.apart ⟨w, hne, hcolon⟩ value hrest, by simp [Binding.kinds, hk], rfl, rfl⟩
      · cases h

/-- The pair of a segment that is not empty is the pair that its tokens are derived from. -/
theorem exists_binding_of_pair? {s : Segment} {p : Option Pair} (hne : s.tokens ≠ [])
    (h : s.pair? = .ok p) :
    ∃ (b : Binding) (column : Nat), s.tokens.map Token.kind = b.kinds ∧
      p = some ⟨b.toPair.1, b.toPair.2, column⟩ := by
  obtain ⟨t, ts, hs⟩ := List.exists_cons_of_ne_nil hne
  cases hk : t.kind with
  | word w =>
    simp only [Segment.pair?, hs, hk] at h
    split at h
    · cases h
    · rename_i hkey
      split at h
      · rename_i hrest
        cases h
        obtain ⟨b, hkinds, hbkey, hbvalue⟩ :=
          exists_binding_of_keyAndValue (Prod.ext rfl (Prod.ext rfl hrest)) hkey
        refine ⟨b, t.column, ?_, ?_⟩
        · rw [hs, List.map_cons, hk, hkinds]
        · rw [Binding.toPair, hbkey, hbvalue]
      · cases h
  | _ => simp [Segment.pair?, hs, hk] at h

/-- Tokens that are derived from a pair are read as it. -/
theorem pair?_binding {b : Binding} {s : Segment} (h : s.tokens.map Token.kind = b.kinds) :
    ∃ column, s.pair? = .ok (some ⟨b.toPair.1, b.toPair.2, column⟩) := by
  obtain ⟨w, ks, hkinds⟩ : ∃ w ks, b.kinds = .word w :: ks := by
    cases b <;> exact ⟨_, _, rfl⟩
  obtain ⟨t, ts, hs, hk, hts⟩ := List.map_eq_cons_iff.1 (h.trans hkinds)
  have hread := keyAndValue_binding (hkinds.trans (by rw [hts]))
  have hkey : b.key ≠ [] := by cases b <;> exact Key.ne_nil _
  refine ⟨t.column, ?_⟩
  simp only [Segment.pair?, hs, hk, hread, hkey, ↓reduceIte]
  rfl

theorem comma_notMem_kinds (b : Binding) : .comma ∉ b.kinds :=
  fun h => by simpa [IsText] using b.isText_kinds .comma h

theorem noComma_of_notMem {ts : List Token} (h : .comma ∉ ts.map Token.kind) :
    ∀ t ∈ ts, t.kind ≠ .comma :=
  fun _ ht hk => h (hk ▸ List.mem_map_of_mem ht)

theorem noComma_of_kinds {b : Binding} {ts : List Token} (h : ts.map Token.kind = b.kinds) :
    ∀ t ∈ ts, t.kind ≠ .comma :=
  noComma_of_notMem (h ▸ comma_notMem_kinds b)

theorem pairKinds_cons (b : Binding) (t : Tail) :
    Tail.pairKinds ⟨b, t.first :: t.more, t.comma⟩ = b.kinds ++ .comma :: t.pairKinds := by
  simp [Tail.pairKinds, moreKinds]

/-- What was read as pairs is derived from a tail. -/
theorem exists_tail_of_pairsOf {ts : List Token} {ps : List Pair} (hne : ts ≠ [])
    (h : pairsOf (segments ts) = .ok ps) :
    ∃ t : Tail, ts.map Token.kind = t.pairKinds ∧ entriesOf ps = t.toList.map Binding.toPair := by
  -- each pair but the last takes a comma
  induction hn : ts.length using Nat.strongRecOn generalizing ts ps with
  | _ n ih =>
    by_cases hcomma : .comma ∈ ts.map Token.kind
    · obtain ⟨_, _, hsplit, hfirst⟩ := List.eq_append_cons_of_mem hcomma
      obtain ⟨us, _, rfl, rfl, hvs⟩ := List.map_eq_append_iff.1 hsplit
      obtain ⟨c, vs, rfl, hc, rfl⟩ := List.map_eq_cons_iff.1 hvs
      rw [segments_append (noComma_of_notMem hfirst) hc, pairsOf] at h
      obtain ⟨p, hp, h⟩ := bind_eq_ok_iff.1 h
      obtain ⟨qs, hqs, h⟩ := bind_eq_ok_iff.1 h
      cases h
      have hus : us ≠ [] := by
        rintro rfl
        cases hp
      obtain ⟨b, column, hkinds, rfl⟩ := exists_binding_of_pair? hus hp
      by_cases hvs : vs = []
      · subst hvs
        cases hqs
        exact ⟨⟨b, [], true⟩, by simp [Tail.pairKinds, moreKinds, hkinds, hc], rfl⟩
      · obtain ⟨t, ht, hentries⟩ := ih vs.length (by simp at hn; omega) hvs hqs rfl
        refine ⟨⟨b, t.first :: t.more, t.comma⟩, ?_, ?_⟩
        · rw [pairKinds_cons, ← ht, ← hkinds]
          simp [hc]
        · exact congrArg (b.toPair :: ·) hentries
    · rw [segments_single (noComma_of_notMem hcomma), pairsOf] at h
      obtain ⟨p, hp, h⟩ := bind_eq_ok_iff.1 h
      cases h
      obtain ⟨b, column, hkinds, rfl⟩ := exists_binding_of_pair? hne hp
      exact ⟨⟨b, [], false⟩, by simpa [Tail.pairKinds, moreKinds] using hkinds, rfl⟩

/-- Tokens that are derived from a tail are read as its pairs. -/
theorem pairsOf_tail {t : Tail} {ts : List Token} (h : ts.map Token.kind = t.pairKinds) :
    ∃ ps, pairsOf (segments ts) = .ok ps ∧ entriesOf ps = t.toList.map Binding.toPair := by
  obtain ⟨b, bs, comma⟩ := t
  induction bs generalizing b ts with
  | nil =>
    cases comma with
    | false =>
      have hts : ts.map Token.kind = b.kinds := by simpa [Tail.pairKinds, moreKinds] using h
      obtain ⟨column, hp⟩ := pair?_binding (s := ⟨ts, none⟩) hts
      refine ⟨[⟨_, _, column⟩], ?_, rfl⟩
      rw [segments_single (noComma_of_kinds hts), pairsOf, hp]
      rfl
    | true =>
      obtain ⟨us, vs, rfl, hus, hvs⟩ := List.map_eq_append_iff.1 h
      obtain ⟨c, vs, rfl, hc, hvs⟩ := List.map_eq_cons_iff.1 hvs
      obtain rfl := List.map_eq_nil_iff.1 hvs
      obtain ⟨column, hp⟩ := pair?_binding (s := ⟨us, some c⟩) hus
      refine ⟨[⟨_, _, column⟩], ?_, rfl⟩
      rw [segments_append (noComma_of_kinds hus) hc, pairsOf, hp]
      rfl
  | cons b' bs ih =>
    rw [pairKinds_cons b ⟨b', bs, comma⟩] at h
    obtain ⟨us, vs, rfl, hus, hvs⟩ := List.map_eq_append_iff.1 h
    obtain ⟨c, vs, rfl, hc, hvs⟩ := List.map_eq_cons_iff.1 hvs
    obtain ⟨ps, hps, hentries⟩ := ih b' hvs
    obtain ⟨column, hp⟩ := pair?_binding (s := ⟨us, some c⟩) hus
    refine ⟨⟨_, _, column⟩ :: ps, ?_, congrArg (b.toPair :: ·) hentries⟩
    rw [segments_append (noComma_of_kinds hus) hc, pairsOf, hp, hps]
    rfl

theorem exists_tail_of_takePairs {ts : List Token} {ps : List Pair} (h : takePairs ts = .ok ps) :
    ∃ t : Option Tail, ts.map Token.kind = tailKinds t ∧
      entriesOf ps = (t.elim [] Tail.toList).map Binding.toPair := by
  cases ts with
  | nil =>
    cases h
    exact ⟨none, rfl, rfl⟩
  | cons t ts =>
    rw [takePairs, readPairs] at h
    split at h
    · rename_i hk
      split at h
      · cases h
      · rename_i hne
        obtain ⟨tail, hts, hentries⟩ := exists_tail_of_pairsOf hne h
        exact ⟨some tail, by simp [tailKinds, hk, hts], hentries⟩
    · cases h

theorem takePairs_tail {t : Option Tail} {ts : List Token} (h : ts.map Token.kind = tailKinds t) :
    ∃ ps, takePairs ts = .ok ps ∧ entriesOf ps = (t.elim [] Tail.toList).map Binding.toPair := by
  cases t with
  | none =>
    obtain rfl := List.map_eq_nil_iff.1 h
    exact ⟨[], rfl, rfl⟩
  | some t =>
    obtain ⟨bar, us, rfl, hk, hus⟩ := List.map_eq_cons_iff.1 h
    have hne : us ≠ [] := by
      rintro rfl
      exact t.first.kinds_ne_nil (List.append_eq_nil_iff.1 hus.symm).1
    rw [takePairs, if_pos hk, readPairs, if_neg hne]
    exact pairsOf_tail hus

/-! ## Lines -/

/-- What reads as a keyword is one. -/
theorem kind_of_keywordOf {head : Token} {f : Family} {v : Verb}
    (h : keywordOf head = .ok (f, v)) : head.kind = .word (keyword f v).toList := by
  unfold keywordOf at h
  cases hk : head.kind with
  | word cs =>
    simp only [hk] at h
    split at h
    · cases h
    · rename_i f' v' hsplit
      obtain ⟨rfl, -⟩ := Text.splitOnce_eq_some hsplit
      split at h
      · cases h
      · rename_i hf
        split at h
        · cases h
        · rename_i hv
          cases h
          have hfamily := Family.name_of_ofName? hf
          have hverb := Verb.name_of_ofName? (Option.filter_eq_some_iff.1 hv).1
          simp [keyword, hfamily, hverb]
  | _ => simp [hk] at h

theorem exists_subject_of_takeSubject (ts : List Token) :
    ∃ q : Option (List Char), (takeSubject ts).1.map Prod.fst = q.map String.ofList ∧
      ts.map Token.kind = (q.map TokenKind.quoted).toList ++ (takeSubject ts).2.map Token.kind := by
  cases ts with
  | nil => exact ⟨none, rfl, rfl⟩
  | cons t ts =>
    cases hk : t.kind with
    | quoted q => exact ⟨some q, by simp [takeSubject, hk], by simp [takeSubject, hk]⟩
    | _ => exact ⟨none, by simp [takeSubject, hk], by simp [takeSubject, hk]⟩

theorem takeSubject_subject {q : Option (List Char)} {ts : List Token} {ks : List TokenKind}
    (hks : ∀ r, ks.head? ≠ some (.quoted r))
    (hts : ts.map Token.kind = (q.map TokenKind.quoted).toList ++ ks) :
    (takeSubject ts).1.map Prod.fst = q.map String.ofList ∧
      (takeSubject ts).2.map Token.kind = ks := by
  cases q with
  | none =>
    obtain rfl : ts.map Token.kind = ks := hts
    cases ts with
    | nil => exact ⟨rfl, rfl⟩
    | cons t ts =>
      cases hk : t.kind with
      | quoted r => exact absurd (by simp [hk]) (hks r)
      | _ => simp [takeSubject, hk]
  | some q =>
    obtain ⟨t, us, rfl, hk, hus⟩ := List.map_eq_cons_iff.1 hts
    simp [takeSubject, hk, show us.map Token.kind = ks from hus]

/-- `o.Follows l`: the outline has the parts of the derivation. -/
structure Follows (o : Outline) (l : Line) : Prop where
  family : o.family = l.family
  verb : o.verb = l.verb
  subject : o.subject.map Prod.fst = l.subject.map String.ofList
  cards : Read l.items o.cards
  pairs : entriesOf o.pairs = l.bindings.map Binding.toPair

/-- What was read as the parts of a line is derived from one. -/
theorem exists_line_of_ofTokens {ts : List Token} {o : Outline} (h : ofTokens ts = .ok o) :
    ∃ l : Line, l.kinds = ts.map Token.kind ∧ o.Follows l := by
  cases ts with
  | nil => cases h
  | cons head ts =>
    rw [ofTokens] at h
    obtain ⟨⟨f, v⟩, hkeyword, h⟩ := bind_eq_ok_iff.1 h
    obtain ⟨⟨cards, rest⟩, hcards, h⟩ := bind_eq_ok_iff.1 h
    obtain ⟨ps, hpairs, h⟩ := bind_eq_ok_iff.1 h
    cases h
    have hcards : takeCards (takeSubject ts).2 = .ok (cards, rest) := hcards
    obtain ⟨q, hq, hsubject⟩ := exists_subject_of_takeSubject ts
    obtain ⟨a, ha, hrest⟩ := exists_cards_of_takeCards hcards
    obtain ⟨t, ht, hentries⟩ := exists_tail_of_takePairs hpairs
    refine ⟨⟨f, v, allows_of_keywordOf hkeyword, q, a, t⟩, ?_, rfl, rfl, hq, ha, hentries⟩
    rw [Line.kinds, List.map_cons, kind_of_keywordOf hkeyword, hsubject, hrest, ht]

/-- Tokens that are derived from a line are read as its parts. -/
theorem ofTokens_line {l : Line} {ts : List Token} (hl : l.kinds = ts.map Token.kind)
    {cards : List CardRef} (hcards : Read l.items cards) :
    ∃ o, ofTokens ts = .ok o ∧ o.Follows l := by
  obtain ⟨f, v, hallows, q, a, t⟩ := l
  obtain ⟨head, us, rfl, hk, hus⟩ := List.map_eq_cons_iff.1 hl.symm
  have noBracket : (tailKinds t).head? ≠ some .openBracket := by
    cases t <;> simp [tailKinds]
  have noQuote (r : List Char) :
      (a.elim [] CardList.kinds ++ tailKinds t).head? ≠ some (.quoted r) := by
    cases a with
    | none => cases t <;> simp [tailKinds]
    | some a => cases a <;> simp [CardList.kinds]
  obtain ⟨hsubject, hrest⟩ := takeSubject_subject noQuote hus
  obtain ⟨rest, htake, hrest⟩ := takeCards_cards hcards noBracket hrest
  obtain ⟨ps, hpairs, hentries⟩ := takePairs_tail hrest
  refine ⟨⟨head, f, v, (takeSubject us).1, cards, ps⟩, ?_, rfl, rfl, hsubject, hcards, hentries⟩
  rw [ofTokens, keywordOf_keyword hallows hk]
  exact bind_eq_ok_iff.2 ⟨_, rfl, bind_eq_ok_iff.2 ⟨_, htake, bind_eq_ok_iff.2 ⟨_, hpairs, rfl⟩⟩⟩

end Outline

/-! ## Building does not look at columns -/

/-- `Alike R x y`: both are results that `R` relates, or both are errors with the same fault and the
same text, perhaps at different columns. -/
inductive Alike {α β : Type} (R : α → β → Prop) :
    Except SyntaxError α → Except SyntaxError β → Prop
  | ok {a : α} {b : β} (h : R a b) : Alike R (.ok a) (.ok b)
  | error {e e' : SyntaxError} (hfault : e.fault = e'.fault) (htoken : e.token = e'.token) :
    Alike R (.error e) (.error e')

theorem Alike.bind {α β γ δ : Type} {R : α → β → Prop} {S : γ → δ → Prop}
    {x : Except SyntaxError α} {y : Except SyntaxError β} {f : α → Except SyntaxError γ}
    {g : β → Except SyntaxError δ} (h : Alike R x y) (hfg : ∀ a b, R a b → Alike S (f a) (g b)) :
    Alike S (x >>= f) (y >>= g) := by
  cases h with
  | ok h => exact hfg _ _ h
  | error hfault htoken => exact .error hfault htoken

theorem Alike.toOption_eq {α : Type} {x y : Except SyntaxError α} (h : Alike Eq x y) :
    x.toOption = y.toOption := by
  cases h with
  | ok h => exact congrArg some h
  | error => rfl

theorem Pair.apply_alike {p q : Pair} (h : (p.key, p.value) = (q.key, q.value)) (s : Statement) :
    Alike Eq (p.apply s) (q.apply s) := by
  obtain ⟨key, value, column⟩ := p
  obtain ⟨key', value', column'⟩ := q
  obtain ⟨rfl, rfl⟩ := Prod.mk.inj h
  -- the value reads the same, and what is done with it fails or succeeds together
  have read {α : Type} {ofText : String → Except VocabularyError α}
      {f g : α → Except SyntaxError Statement} (hfg : ∀ a, Alike Eq (f a) (g a)) :
      Alike Eq (valueAs ⟨key, value, column⟩ ofText >>= f)
        (valueAs ⟨key, value, column'⟩ ofText >>= g) := by
    unfold valueAs
    cases ofText value with
    | ok a => exact hfg a
    | error e => exact .error rfl rfl
  unfold apply
  dsimp only
  split
  · refine read fun persona => ?_
    split
    · exact .error rfl rfl
    · exact .ok rfl
  split
  · refine read fun level => ?_
    split
    · exact .error rfl rfl
    · exact .ok rfl
  split
  · exact read fun _ => .ok rfl
  split
  · exact read fun _ => .ok rfl
  split
  · exact .error rfl rfl
  · exact .ok rfl

namespace Outline

theorem applyPairs_alike {ps qs : List Pair} (h : entriesOf ps = entriesOf qs) (s : Statement) :
    Alike Eq (applyPairs s ps) (applyPairs s qs) := by
  induction ps generalizing qs s with
  | nil =>
    obtain rfl := List.map_eq_nil_iff.1 h.symm
    exact .ok rfl
  | cons p ps ih =>
    obtain ⟨q, qs, rfl, hq, hqs⟩ := List.map_eq_cons_iff.1 h.symm
    refine (Pair.apply_alike hq.symm s).bind fun t _ ht => ?_
    rw [← ht]
    exact ih hqs.symm t

theorem toOption_subjectAs (o : Outline) {α : Type} (what : String)
    (ofText : String → Except VocabularyError α) :
    (o.subjectAs what ofText).toOption =
      (o.subject.map Prod.fst).bind fun text => (ofText text).toOption := by
  rw [subjectAs, toOption_bind, requireSubject]
  cases o.subject with
  | none => rfl
  | some st =>
    simp only [Option.map_some, Option.bind_some, Except.toOption]
    cases ofText st.1 <;> rfl

/-- Outlines with the same parts, wherever they stand. -/
structure Agrees (o o' : Outline) : Prop where
  family : o.family = o'.family
  verb : o.verb = o'.verb
  subject : o.subject.map Prod.fst = o'.subject.map Prod.fst
  cards : o.cards = o'.cards
  pairs : entriesOf o.pairs = entriesOf o'.pairs

theorem Agrees.build_eq {o o' : Outline} (h : o.Agrees o') :
    o.build.toOption = o'.build.toOption := by
  have hbase : o.base = o'.base := by
    simp only [base, h.family, h.verb, h.subject, h.cards]
  have hsubject : o.withSubject.toOption = o'.withSubject.toOption := by
    unfold withSubject
    rw [hbase, h.family, h.verb, h.cards]
    split
    · simp only [toOption_bind, toOption_subjectAs, h.subject]
    · simp only [toOption_bind, toOption_subjectAs, h.subject]
    · simp only [toOption_bind, toOption_subjectAs, h.subject]
    · split <;> rfl
    · rfl
  rw [build, build, toOption_bind, toOption_bind, hsubject]
  exact congrArg _ (funext fun t => (applyPairs_alike h.pairs t).toOption_eq)

/-- An outline with the parts of a derivation builds what the derivation says. -/
theorem Follows.build_eq {o : Outline} {l : Line} (h : o.Follows l) :
    o.build.toOption = l.statement? := by
  have hcards : (l.items.mapM fun i => i.card.toOption) = some o.cards :=
    mapM_card_eq_some_iff.2 h.cards
  have hagrees : o.Agrees (l.outline o.cards) := by
    refine ⟨h.family, h.verb, ?_, rfl, ?_⟩
    · simp [Line.outline, h.subject, Function.comp_def]
    · rw [h.pairs, Line.outline, entriesOf, List.map_map]
      rfl
  rw [hagrees.build_eq, Line.statement?, hcards]
  rfl

end Outline

namespace Statement

/-- What was read as a statement is derived from a line that says it. -/
theorem exists_line_of_ofTokens {ts : List Token} {s : Statement} (h : ofTokens ts = .ok s) :
    ∃ l : Line, l.kinds = ts.map Token.kind ∧ l.statement? = some s := by
  rw [ofTokens] at h
  obtain ⟨o, ho, hbuild⟩ := bind_eq_ok_iff.1 h
  obtain ⟨l, hkinds, hfollows⟩ := Outline.exists_line_of_ofTokens ho
  exact ⟨l, hkinds, by rw [← hfollows.build_eq, hbuild]; rfl⟩

/-- Tokens that are derived from a line are read as what it says. -/
theorem ofTokens_of_line {l : Line} {ts : List Token} {s : Statement}
    (hkinds : l.kinds = ts.map Token.kind) (hs : l.statement? = some s) : ofTokens ts = .ok s := by
  obtain ⟨cards, hcards, -⟩ := Option.bind_eq_some_iff.1 hs
  obtain ⟨o, ho, hfollows⟩ := Outline.ofTokens_line hkinds (mapM_card_eq_some_iff.1 hcards)
  rw [← hfollows.build_eq] at hs
  exact bind_eq_ok_iff.2 ⟨o, ho, toOption_eq_some_iff.1 hs⟩

/-- Tokens are read as a statement exactly if they are derived from a line that says it, and no
tokens are derived from two lines. -/
theorem ofTokens_eq_ok_iff_derives (ts : List Token) (s : Statement) :
    (ofTokens ts = .ok s ↔
      ∃ l : Line, l.kinds = ts.map Token.kind ∧ l.statement? = some s) ∧
    Subsingleton { l : Line // l.kinds = ts.map Token.kind } := by
  refine ⟨⟨exists_line_of_ofTokens, ?_⟩, ⟨?_⟩⟩
  · rintro ⟨l, hkinds, hs⟩
    exact ofTokens_of_line hkinds hs
  · rintro ⟨l, hl⟩ ⟨l', hl'⟩
    exact Subtype.ext (Line.kinds_injective (hl.trans hl'.symm))

-- a comma may end the pairs, but not the cards
example : (parse "ritual.complete \"dawn\" | calm : , note:,").isOk = true ∧
    (parse "archive.access [card:a,]").isOk = false := by
  decide +kernel

end Statement

end RitualGate
