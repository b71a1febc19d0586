import RitualGate.Proofs.RoundTrip

/-!
# The grammar of lines

A line is made of tokens by these rules, where `k` is a key, not empty and without a colon, and `v`
is not empty:

    line  ::= WORD(family.verb) [QUOTED] [cards] [tail]
    cards ::= "[" "]" | "[" item ("," item)* "]"
    item  ::= WORD(w) | QUOTED(v) | WORD(card:) WORD(w) | WORD(card:) QUOTED(v)
    tail  ::= "|" pair ("," pair)* [","]
    pair  ::= WORD(k:v) | WORD(k:) [piece] | WORD(k) WORD(:v) | WORD(k) WORD(:) [piece] | WORD(k)
    piece ::= WORD(w) | QUOTED(q)

An item that is a single word is not `card:`. A derivation by these rules is a tree, `Grammar.Line`
with its parts, and `kinds` gives the tokens that a tree derives. The grammar is unambiguous: no two
trees derive the same tokens (`Line.kinds_injective`).
-/

namespace RitualGate

namespace Grammar

/-! ## Derivations -/

/-- A word or a quoted text. -/
inductive Piece where
  | word (cs : List Char)
  | quoted (cs : List Char)

/-- A reference in a list of cards. -/
inductive Item where
  | word (w : List Char) (h : w ≠ Outline.cardMark)
  | quoted (q : List Char) (h : q ≠ [])
  | markedWord (w : List Char)
  | markedQuoted (q : List Char) (h : q ≠ [])

/-- A list of cards between its brackets. -/
inductive CardList where
  | empty
  | items (first : Item) (more : List Item)

/-- What stands before the colon of a pair. -/
structure Key where
  chars : List Char
  ne_nil : chars ≠ []
  colon_notMem : ':' ∉ chars

/-- A pair behind the bar: the key and the value joined by a colon in one word, a word that ends
with the colon and perhaps a value, the same with the colon at the start of a word of its own, and a
key alone. -/
inductive Binding where
  | joined (key : Key) (value : List Char) (h : value ≠ [])
  | ended (key : Key) (value : Option Piece)
  | apart (key : Key) (value : List Char) (h : value ≠ [])
  | parted (key : Key) (value : Option Piece)
  | flag (key : Key)

/-- The pairs behind a bar, and whether a comma ends them. -/
structure Tail where
  first : Binding
  more : List Binding
  comma : Bool

/-- A line. -/
structure Line where
  family : Family
  verb : Verb
  allows : family.allows verb = true
  subject : Option (List Char)
  cards : Option CardList
  tail : Option Tail

/-! ## What they derive -/

/-- The tokens of parts that stand behind commas. -/
def moreKinds {α : Type} (kinds : α → List TokenKind) (as : List α) : List TokenKind :=
  as.flatMap fun a => .comma :: kinds a

/-- The token of a piece. -/
def Piece.kind : Piece → TokenKind
  | word cs => .word cs
  | quoted cs => .quoted cs

/-- The tokens of an item. -/
def Item.kinds : Item → List TokenKind
  | word w _ => [.word w]
  | quoted q _ => [.quoted q]
  | markedWord w => [.word Outline.cardMark, .word w]
  | markedQuoted q _ => [.word Outline.cardMark, .quoted q]

/-- The tokens of a list of cards. -/
def CardList.kinds : CardList → List TokenKind
  | empty => [.openBracket, .closeBracket]
  | items first more =>
    .openBracket :: (first.kinds ++ (moreKinds Item.kinds more ++ [.closeBracket]))

/-- The tokens of a pair. -/
def Binding.kinds : Binding → List TokenKind
  | joined key value _ => [.word (key.chars ++ ':' :: value)]
  | ended key value => .word (key.chars ++ [':']) :: (value.map Piece.kind).toList
  | apart key value _ => [.word key.chars, .word (':' :: value)]
  | parted key value => .word key.chars :: .word [':'] :: (value.map Piece.kind).toList
  | flag key => [.word key.chars]

/-- The tokens of some pairs. -/
def Tail.pairKinds (t : Tail) : List TokenKind :=
  t.first.kinds ++ (moreKinds Binding.kinds t.more ++ if t.comma then [.comma] else [])

/-- The tokens of a tail, if there is one. -/
def tailKinds (tail : Option Tail) : List TokenKind :=
  tail.elim [] fun t => .pipe :: t.pairKinds

/-- The tokens of a line. -/
def Line.kinds (l : Line) : List TokenKind :=
  .word (keyword l.family l.verb).toList ::
    ((l.subject.map TokenKind.quoted).toList ++
      (l.cards.elim [] CardList.kinds ++ tailKinds l.tail))

/-! ## No two derivations of the same tokens -/

/-- Words and quoted texts, as opposed to punctuation. -/
def IsText (k : TokenKind) : Prop :=
  (∃ cs, k = .word cs) ∨ ∃ cs, k = .quoted cs

theorem isText_word (cs : List Char) : IsText (.word cs) := .inl ⟨cs, rfl⟩

theorem isText_quoted (cs : List Char) : IsText (.quoted cs) := .inr ⟨cs, rfl⟩

theorem Piece.isText_kind (p : Piece) : IsText p.kind := by
  cases p with
  | word cs => exact isText_word cs
  | quoted cs => exact isText_quoted cs

/-- Texts up to the first punctuation are determined by the whole. -/
theorem texts_append_inj {a b ks ks' : List TokenKind} (ha : ∀ k ∈ a, IsText k)
    (hb : ∀ k ∈ b, IsText k) (hks : ∀ k ∈ ks.head?, ¬ IsText k) (hks' : ∀ k ∈ ks'.head?, ¬ IsText k)
    (h : a ++ ks = b ++ ks') : a = b ∧ ks = ks' := by
  induction a generalizing b with
  | nil =>
    cases b with
    | nil => exact ⟨rfl, h⟩
    | cons k b => exact absurd (hb k List.mem_cons_self) (hks k (by simp_all))
  | cons k a ih =>
    cases b with
    | nil => exact absurd (ha k List.mem_cons_self) (hks' k (by simp [← show _ = ks' from h]))
    | cons k' b =>
      rw [List.cons_append, List.cons_append, List.cons.injEq] at h
      obtain ⟨rfl, htail⟩ := h
      obtain ⟨rfl, hrest⟩ := ih (List.forall_mem_cons.1 ha).2 (List.forall_mem_cons.1 hb).2 htail
      exact ⟨rfl, hrest⟩

/-- What can stand behind the last of some parts: no text, and no comma with a text behind it. -/
structure Closes (ks : List TokenKind) : Prop where
  head : ∀ k ∈ ks.head?, ¬ IsText k
  comma : ∀ k ks', ks = .comma :: k :: ks' → ¬ IsText k

theorem head_moreKinds {α : Type} {kinds : α → List TokenKind} {u : List TokenKind} (hu : Closes u)
    (as : List α) : ∀ k ∈ (moreKinds kinds as ++ u).head?, ¬ IsText k := by
  cases as with
  | nil => exact hu.head
  | cons a as =>
    rintro k ⟨⟩
    simp [IsText]

/-- Parts that stand behind commas are determined by their tokens and what follows. -/
theorem moreKinds_inj {α : Type} {kinds : α → List TokenKind}
    (hinj : ∀ a b, kinds a = kinds b → a = b) (htext : ∀ a, ∀ k ∈ kinds a, IsText k)
    (hne : ∀ a, kinds a ≠ []) {as bs : List α} {u v : List TokenKind} (hu : Closes u)
    (hv : Closes v) (h : moreKinds kinds as ++ u = moreKinds kinds bs ++ v) : as = bs ∧ u = v := by
  -- where one of the lists has ended, the other has a text behind a comma
  have clash {u : List TokenKind} (hu : Closes u) (a : α) (rest : List TokenKind)
      (h : u = .comma :: (kinds a ++ rest)) : False := by
    obtain ⟨k, ks, hks⟩ := List.exists_cons_of_ne_nil (hne a)
    exact hu.comma k (ks ++ rest) (by rw [h, hks, List.cons_append])
      (htext a k (hks ▸ List.mem_cons_self))
  induction as generalizing bs with
  | nil =>
    cases bs with
    | nil => exact ⟨rfl, h⟩
    | cons b bs => exact (clash hu b _ (by simpa [moreKinds] using h)).elim
  | cons a as ih =>
    cases bs with
    | nil => exact (clash hv a _ (by simpa [moreKinds] using h.symm)).elim
    | cons b bs =>
      have h : kinds a ++ (moreKinds kinds as ++ u) = kinds b ++ (moreKinds kinds bs ++ v) := by
        simpa [moreKinds] using h
      obtain ⟨hab, h⟩ := texts_append_inj (htext a) (htext b) (head_moreKinds hu as)
        (head_moreKinds hv bs) h
      obtain ⟨rfl, huv⟩ := ih h
      exact ⟨by rw [hinj a b hab], huv⟩

/-! ### Items -/

theorem Item.isText_kinds (i : Item) : ∀ k ∈ i.kinds, IsText k := by
  cases i <;> simp [kinds, isText_word, isText_quoted]

theorem Item.kinds_ne_nil (i : Item) : i.kinds ≠ [] := by
  cases i <;> simp [kinds]

theorem Item.kinds_injective (i j : Item) (h : i.kinds = j.kinds) : i = j := by
  cases i <;> cases j <;> simp_all [kinds]

theorem closes_closeBracket (ks : List TokenKind) : Closes (.closeBracket :: ks) :=
  ⟨by simp [IsText], nofun⟩

/-- A list of cards is determined by its tokens, whatever follows its closing bracket. -/
theorem CardList.kinds_append_inj {a b : CardList} {u v : List TokenKind}
    (h : a.kinds ++ u = b.kinds ++ v) : a = b ∧ u = v := by
  have items {i : Item} {is : List Item} {u v : List TokenKind}
      (h : i.kinds ++ (moreKinds Item.kinds is ++ .closeBracket :: u) = .closeBracket :: v) :
      False := by
    obtain ⟨k, ks, hks⟩ := List.exists_cons_of_ne_nil i.kinds_ne_nil
    have htext := i.isText_kinds k (hks ▸ List.mem_cons_self)
    rw [hks, List.cons_append] at h
    obtain ⟨rfl, -⟩ := List.cons.inj h
    simp [IsText] at htext
  cases a with
  | empty =>
    cases b with
    | empty => exact ⟨rfl, by simpa [kinds] using h⟩
    | items j js => exact (items (u := v) (v := u) (by simpa [kinds] using h.symm)).elim
  | items i is =>
    cases b with
    | empty => exact (items (by simpa [kinds] using h)).elim
    | items j js =>
      have h : i.kinds ++ (moreKinds Item.kinds is ++ .closeBracket :: u) =
          j.kinds ++ (moreKinds Item.kinds js ++ .closeBracket :: v) := by
        simpa [kinds] using h
      obtain ⟨hij, h⟩ := texts_append_inj i.isText_kinds j.isText_kinds
        (head_moreKinds (closes_closeBracket u) is) (head_moreKinds (closes_closeBracket v) js) h
      obtain ⟨rfl, huv⟩ := moreKinds_inj Item.kinds_injective Item.isText_kinds Item.kinds_ne_nil
        (closes_closeBracket u) (closes_closeBracket v) h
      exact ⟨by rw [i.kinds_injective j hij], (List.cons.inj huv).2⟩

/-! ### Pairs -/

theorem Key.eq_of_chars {k k' : Key} (h : k.chars = k'.chars) : k = k' := by
  cases k
  cases k'
  cases h
  rfl

/-- The key and the value of a word are the parts before and after its first colon. -/
theorem Key.append_colon_inj {k k' : Key} {v v' : List Char}
    (h : k.chars ++ ':' :: v = k'.chars ++ ':' :: v') : k = k' ∧ v = v' := by
  have hsplit := Text.splitOnce_append k.colon_notMem v
  rw [h, Text.splitOnce_append k'.colon_notMem v', Option.some.injEq, Prod.mk.injEq] at hsplit
  exact ⟨Key.eq_of_chars hsplit.1.symm, hsplit.2.symm⟩

/-- A key is no word with a colon. -/
theorem Key.chars_ne_append_colon (k k' : Key) (v : List Char) : k.chars ≠ k'.chars ++ ':' :: v :=
  fun h => k.colon_notMem (by simp [h])

theorem Binding.isText_kinds (b : Binding) : ∀ k ∈ b.kinds, IsText k := by
  cases b <;> simp [kinds, isText_word, Piece.isText_kind]

theorem Binding.kinds_ne_nil (b : Binding) : b.kinds ≠ [] := by
  cases b <;> simp [kinds]

theorem Piece.kind_injective : Function.Injective Piece.kind := by
  intro p q h
  cases p <;> cases q <;> simp_all [kind]

theorem Piece.toList_injective {p q : Option Piece}
    (h : (p.map kind).toList = (q.map kind).toList) : p = q := by
  refine Option.map_injective kind_injective ?_
  cases hp : p.map kind <;> cases hq : q.map kind <;> simp_all

/-- Pairs made by the same rule are determined by their tokens; of two rules, one puts a colon where
the other has none, or has a token more. -/
theorem Binding.kinds_injective (a b : Binding) (h : a.kinds = b.kinds) : a = b := by
  cases a <;> cases b <;> simp only [kinds, List.cons.injEq, TokenKind.word.injEq] at h
  case joined.joined =>
    obtain ⟨rfl, rfl⟩ := Key.append_colon_inj h.1
    rfl
  case ended.ended =>
    obtain ⟨rfl, -⟩ := Key.append_colon_inj h.1
    rw [Piece.toList_injective h.2]
  case apart.apart =>
    obtain ⟨hkey, ⟨-, rfl⟩, -⟩ := h
    rw [Key.eq_of_chars hkey]
  case parted.parted => rw [Key.eq_of_chars h.1, Piece.toList_injective h.2.2]
  case flag.flag => rw [Key.eq_of_chars h.1]
  case joined.ended hv _ _ => exact absurd (Key.append_colon_inj h.1).2 hv
  case ended.joined hv => exact absurd (Key.append_colon_inj h.1).2.symm hv
  case apart.parted hv _ _ => exact absurd h.2.1.2 hv
  case parted.apart hv => exact absurd h.2.1.2.symm hv
  case joined.apart | joined.parted | joined.flag | ended.apart | ended.parted | ended.flag =>
    exact absurd h.1.symm (Key.chars_ne_append_colon _ _ _)
  case apart.joined | parted.joined | flag.joined | apart.ended | parted.ended | flag.ended =>
    exact absurd h.1 (Key.chars_ne_append_colon _ _ _)
  case apart.flag | parted.flag | flag.apart | flag.parted => exact nomatch h.2

/-! ### Lines -/

theorem closes_lastComma (comma : Bool) : Closes (if comma then [.comma] else []) := by
  cases comma with
  | false => exact ⟨nofun, nofun⟩
  | true => exact ⟨by simp [IsText], nofun⟩

theorem Tail.pairKinds_injective (a b : Tail) (h : a.pairKinds = b.pairKinds) : a = b := by
  obtain ⟨a, as, ca⟩ := a
  obtain ⟨b, bs, cb⟩ := b
  obtain ⟨hab, h⟩ := texts_append_inj a.isText_kinds b.isText_kinds
    (head_moreKinds (closes_lastComma ca) as) (head_moreKinds (closes_lastComma cb) bs) h
  obtain ⟨rfl, hcomma⟩ := moreKinds_inj Binding.kinds_injective Binding.isText_kinds
    Binding.kinds_ne_nil (closes_lastComma ca) (closes_lastComma cb) h
  obtain rfl := a.kinds_injective b hab
  cases ca <;> cases cb <;> simp_all

theorem tailKinds_injective {a b : Option Tail} (h : tailKinds a = tailKinds b) : a = b := by
  cases a <;> cases b <;> simp only [tailKinds, Option.elim, List.cons.injEq] at h
  case none.none => rfl
  case some.some a b => rw [a.pairKinds_injective b h.2]
  all_goals cases h

/-- The cards and the tail of a line are determined by their tokens. -/
theorem cardsKinds_append_inj {a b : Option CardList} {t u : Option Tail}
    (h : a.elim [] CardList.kinds ++ tailKinds t = b.elim [] CardList.kinds ++ tailKinds u) :
    a = b ∧ t = u := by
  have clash (a : CardList) (ks : List TokenKind) (t : Option Tail) :
      a.kinds ++ ks ≠ tailKinds t := by
    cases a <;> cases t <;> simp [CardList.kinds, tailKinds]
  cases a with
  | none =>
    cases b with
    | none => exact ⟨rfl, tailKinds_injective h⟩
    | some b => exact absurd h.symm (clash b _ t)
  | some a =>
    cases b with
    | none => exact absurd h (clash a _ u)
    | some b =>
      obtain ⟨rfl, htail⟩ := CardList.kinds_append_inj h
      exact ⟨rfl, tailKinds_injective htail⟩

theorem keyword_injective {f g : Family} {v w : Verb} (hf : f.allows v = true)
    (hg : g.allows w = true) (h : (keyword f v).toList = (keyword g w).toList) : f = g ∧ v = w := by
  have hread : Outline.keywordOf ⟨.word (keyword f v).toList, 1⟩ = .ok (f, v) :=
    Outline.keywordOf_keyword hf rfl
  rw [Outline.keywordOf_keyword hg (by rw [h])] at hread
  simpa [eq_comm] using hread

/-- No two derivations give the same tokens. -/
theorem Line.kinds_injective : Function.Injective Line.kinds := by
  rintro ⟨f, v, hfv, q, a, t⟩ ⟨g, w, hgw, r, b, u⟩ h
  obtain ⟨hkeyword, h⟩ := List.cons.inj h
  obtain ⟨rfl, rfl⟩ := keyword_injective hfv hgw (TokenKind.word.inj hkeyword)
  have clash (q : List Char) (ks : List TokenKind) (a : Option CardList) (t : Option Tail) :
      .quoted q :: ks ≠ a.elim [] CardList.kinds ++ tailKinds t := by
    cases a with
    | none => cases t <;> simp [tailKinds]
    | some a => cases a <;> simp [CardList.kinds]
  cases q with
  | none =>
    cases r with
    | none =>
      obtain ⟨rfl, rfl⟩ := cardsKinds_append_inj h
      rfl
    | some r => exact absurd h.symm (clash r _ a t)
  | some q =>
    cases r with
    | none => exact absurd h (clash q _ b u)
    | some r =>
      obtain ⟨hq, h⟩ := List.cons.inj h
      obtain ⟨rfl, rfl⟩ := cardsKinds_append_inj h
      cases hq
      rfl

end Grammar

end RitualGate
