import RitualGate.Proofs.PairEffects
import RitualGate.Proofs.ProgramRun

/-!
# The order of pairs

`TailCut` is a line cut at its bar and at the commas behind it, into the head, the texts of the
pairs and perhaps a last comma; every line that reads and has a bar is one (`exists_cut`). With the
pairs in another order (`Reorders`) the line is rejected as it was, or it reads as the same
statement but for the intent, which is that of the last pair that names one (`parse_reordered`). So
the order is of no account exactly if no two pairs name different intents. `pair_order` says this,
and `intents_reordered` shows a line of which the order matters.

The cut is one of texts. Its tokens are found piece by piece (`TailCut.spells_line`), and they are
derived from a tree whose pairs are the pieces (`TailCut.exists_tail`).
-/

namespace RitualGate

open Grammar
open Token (Spells)

/-! ## Spellings with a mark between them -/

namespace Token

theorem isWordChar_of_punctuation? {c : Char} {k : TokenKind} (h : punctuation? c = some k) :
    isWordChar c = false := by
  rcases punctuation?_cases h with ⟨rfl, -⟩ | ⟨rfl, -⟩ | ⟨rfl, -⟩ | ⟨rfl, -⟩ <;> decide

theorem punctuation?_injective {c d : Char} {k : TokenKind} (hc : punctuation? c = some k)
    (hd : punctuation? d = some k) : c = d := by
  rcases punctuation?_cases hc with ⟨rfl, rfl⟩ | ⟨rfl, rfl⟩ | ⟨rfl, rfl⟩ | ⟨rfl, rfl⟩ <;>
    rcases punctuation?_cases hd with ⟨rfl, h⟩ | ⟨rfl, h⟩ | ⟨rfl, h⟩ | ⟨rfl, h⟩ <;>
    first | rfl | cases h

theorem Spells.append_mark {ks ls : List TokenKind} {cs ds : List Char} {c : Char} {k : TokenKind}
    (h : Spells ks cs) (hk : punctuation? c = some k) (h' : Spells ls ds) :
    Spells (ks ++ k :: ls) (cs ++ c :: ds) := by
  induction h with
  | done => exact .mark hk h'
  | blank hc _ ih => exact .blank hc ih
  | mark hk' _ ih => exact .mark hk' ih
  | quoted hb _ ih => simpa using Spells.quoted hb ih
  | @word w ks cs hne hw hs _ ih =>
    have hs : Separated (cs ++ c :: ds) := by
      cases cs with
      | nil =>
        rintro d ⟨⟩
        exact isWordChar_of_punctuation? hk
      | cons d cs => exact hs
    simpa using Spells.word hne hw hs ih

/-- A spelling can be cut at a mark. -/
theorem Spells.cut {ks ls : List TokenKind} {cs : List Char} {c : Char} {k : TokenKind}
    (hk : punctuation? c = some k) (h : Spells (ks ++ k :: ls) cs) :
    ∃ before behind, cs = before ++ c :: behind ∧ Spells ks before ∧ Spells ls behind := by
  generalize hall : ks ++ k :: ls = all at h
  induction h generalizing ks with
  | done => simp at hall
  | blank hc _ ih =>
    obtain ⟨before, behind, rfl, hbefore, hbehind⟩ := ih hall
    exact ⟨_ :: before, behind, rfl, .blank hc hbefore, hbehind⟩
  | mark hk' h ih =>
    cases ks with
    | nil =>
      obtain ⟨rfl, rfl⟩ := List.cons.inj hall
      exact ⟨[], _, by rw [punctuation?_injective hk hk', List.nil_append], .done, h⟩
    | cons k' ks =>
      obtain ⟨rfl, hrest⟩ := List.cons.inj hall
      obtain ⟨before, behind, rfl, hbefore, hbehind⟩ := ih hrest
      exact ⟨_ :: before, behind, rfl, .mark hk' hbefore, hbehind⟩
  | quoted hb h ih =>
    cases ks with
    | nil =>
      obtain ⟨rfl, -⟩ := List.cons.inj hall
      exact absurd (punctuation?_cases hk) (by simp)
    | cons k' ks =>
      obtain ⟨rfl, hrest⟩ := List.cons.inj hall
      obtain ⟨before, behind, rfl, hbefore, hbehind⟩ := ih hrest
      exact ⟨_, behind, by simp, .quoted hb hbefore, hbehind⟩
  | @word w _ cs hne hw hs h ih =>
    cases ks with
    | nil =>
      obtain ⟨rfl, -⟩ := List.cons.inj hall
      exact absurd rfl (punctuation?_ne_word hk w)
    | cons k' ks =>
      obtain ⟨rfl, hrest⟩ := List.cons.inj hall
      obtain ⟨before, behind, rfl, hbefore, hbehind⟩ := ih hrest
      have hs : Separated before := fun d hd => hs d (by cases before <;> simp_all)
      exact ⟨w ++ before, behind, by simp, .word hne hw hs hbefore, hbehind⟩

/-- The kinds of the tokens of a text, if it has tokens. -/
def kindsOf (cs : List Char) : List TokenKind :=
  ((scan (String.ofList cs)).toOption.getD []).map Token.kind

theorem kindsOf_eq {ks : List TokenKind} {cs : List Char} (h : Spells ks cs) : kindsOf cs = ks := by
  have h : Spells ks (String.ofList cs).toList := by rwa [String.toList_ofList]
  obtain ⟨ts, hscan, hkinds⟩ := scan_of_spells h
  rw [kindsOf, hscan]
  exact hkinds

theorem spells_kindsOf {cs : List Char} (h : (scan (String.ofList cs)).isOk = true) :
    Spells (kindsOf cs) cs := by
  cases hscan : scan (String.ofList cs) with
  | error e =>
    rw [hscan] at h
    cases h
  | ok ts =>
    have hspells := spells_of_scan hscan
    rw [kindsOf, hscan]
    rwa [String.toList_ofList] at hspells

/-- A text that has tokens, none of which is a comma. -/
def IsPair (cs : List Char) : Prop :=
  (scan (String.ofList cs)).isOk = true ∧ kindsOf cs ≠ [] ∧ .comma ∉ kindsOf cs

instance (cs : List Char) : Decidable (IsPair cs) :=
  inferInstanceAs (Decidable (_ ∧ _ ∧ _))

theorem IsPair.spelled {cs : List Char} (h : IsPair cs) :
    ∃ ks, Spells ks cs ∧ ks ≠ [] ∧ .comma ∉ ks :=
  ⟨kindsOf cs, spells_kindsOf h.1, h.2⟩

end Token

open Token (kindsOf)

/-! ## Lines with a tail -/

/-- A line cut at its bar and at the commas behind it. -/
structure TailCut where
  head : List Char
  /-- The texts of the pairs, with the blanks around them. -/
  pairs : List (List Char)
  /-- What stands behind the last pair: nothing, or a comma and blanks. -/
  stop : List Char
  head_spelled : ∃ ks, Spells ks head ∧ .pipe ∉ ks
  pairs_ne_nil : pairs ≠ []
  pairs_spelled : ∀ p ∈ pairs, ∃ ks, Spells ks p ∧ ks ≠ [] ∧ .comma ∉ ks
  stop_spelled : stop = [] ∨ ∃ blanks, stop = ',' :: blanks ∧ Spells [] blanks

namespace TailCut

/-- The line that was cut. -/
def line (k : TailCut) : String :=
  String.ofList (k.head ++ '|' :: ([','].intercalate k.pairs ++ k.stop))

/-- `k.Reorders k'`: the line `k'` is the line `k` with its pairs in another order. -/
def Reorders (k k' : TailCut) : Prop :=
  k'.head = k.head ∧ k'.stop = k.stop ∧ k.pairs.Perm k'.pairs

theorem Reorders.refl (k : TailCut) : k.Reorders k := ⟨rfl, rfl, .refl _⟩

theorem Reorders.symm {k k' : TailCut} (h : k.Reorders k') : k'.Reorders k :=
  ⟨h.1.symm, h.2.1.symm, h.2.2.symm⟩

/-- A line with its pairs as they are in a permutation of them. -/
def reorder (k : TailCut) (pairs : List (List Char)) (h : k.pairs.Perm pairs) : TailCut where
  head := k.head
  pairs := pairs
  stop := k.stop
  head_spelled := k.head_spelled
  pairs_ne_nil := by
    rintro rfl
    exact k.pairs_ne_nil h.eq_nil
  pairs_spelled p hp := k.pairs_spelled p (h.mem_iff.2 hp)
  stop_spelled := k.stop_spelled

/-! ### Its tokens -/

/-- The tokens of the pairs, and nothing behind a last comma. -/
def pieces (k : TailCut) : List (List TokenKind) :=
  k.pairs.map kindsOf ++ if k.stop = [] then [] else [[]]

/-- The tokens of the line. -/
def kinds (k : TailCut) : List TokenKind :=
  kindsOf k.head ++ .pipe :: [.comma].intercalate k.pieces

theorem spells_head (k : TailCut) : Spells (kindsOf k.head) k.head ∧ .pipe ∉ kindsOf k.head := by
  obtain ⟨ks, hspells, hpipe⟩ := k.head_spelled
  rw [Token.kindsOf_eq hspells]
  exact ⟨hspells, hpipe⟩

theorem spells_pair (k : TailCut) : ∀ p ∈ k.pairs,
    Spells (kindsOf p) p ∧ kindsOf p ≠ [] ∧ .comma ∉ kindsOf p := by
  intro p hp
  obtain ⟨ks, hspells, hne, hcomma⟩ := k.pairs_spelled p hp
  rw [Token.kindsOf_eq hspells]
  exact ⟨hspells, hne, hcomma⟩

theorem intercalate_concat {α : Type} (x : α) (l : List α) :
    ∀ {ls : List (List α)}, ls ≠ [] → [x].intercalate (ls ++ [l]) = [x].intercalate ls ++ x :: l
  | [], h => absurd rfl h
  | [m], _ => by simp
  | m :: n :: ls, _ => by
    have ih := intercalate_concat x l (List.cons_ne_nil n ls)
    simp only [List.cons_append, List.intercalate_cons_cons] at ih ⊢
    rw [ih]
    simp

theorem spells_intercalate : ∀ {ps : List (List Char)}, (∀ p ∈ ps, Spells (kindsOf p) p) →
    Spells ([.comma].intercalate (ps.map kindsOf)) ([','].intercalate ps)
  | [], _ => .done
  | [p], h => by simpa using h p
  | p :: q :: ps, h => by
    obtain ⟨hp, hrest⟩ := List.forall_mem_cons.1 h
    simpa [List.intercalate_cons_cons] using
      Spells.append_mark (c := ',') hp rfl (spells_intercalate hrest)

theorem spells_line (k : TailCut) : Spells k.kinds k.line.toList := by
  rw [line, String.toList_ofList]
  refine Spells.append_mark (c := '|') k.spells_head.1 rfl ?_
  have hpairs := spells_intercalate fun p hp => (k.spells_pair p hp).1
  rcases k.stop_spelled with hstop | ⟨blanks, hstop, hblanks⟩
  · simpa [pieces, hstop] using hpairs
  · have hlast := Spells.append_mark (c := ',') hpairs rfl hblanks
    have hne : k.pairs.map kindsOf ≠ [] := fun h => k.pairs_ne_nil (List.map_eq_nil_iff.1 h)
    rw [pieces, hstop, if_neg (List.cons_ne_nil _ _), intercalate_concat _ _ hne]
    exact hlast

end TailCut

/-! ### Its derivation -/

namespace Grammar

/-- The tokens of a line before its tail. -/
def Line.headKinds (l : Line) : List TokenKind :=
  .word (keyword l.family l.verb).toList ::
    ((l.subject.map TokenKind.quoted).toList ++ l.cards.elim [] CardList.kinds)

theorem Line.kinds_eq (l : Line) : l.kinds = l.headKinds ++ tailKinds l.tail := by
  simp [kinds, headKinds]

theorem CardList.pipe_notMem_kinds (a : CardList) : .pipe ∉ a.kinds := by
  have item (i : Item) : .pipe ∉ i.kinds := fun h => by simpa [IsText] using i.isText_kinds _ h
  cases a <;> simp [kinds, moreKinds, item]

theorem Line.pipe_notMem_headKinds (l : Line) : .pipe ∉ l.headKinds := by
  have hcards : .pipe ∉ l.cards.elim [] CardList.kinds := by
    cases l.cards with
    | none => exact List.not_mem_nil
    | some a => exact a.pipe_notMem_kinds
  cases l.subject <;> simpa [headKinds] using hcards

/-- The tokens of the pairs of a tail, and nothing behind a last comma. -/
def Tail.pieces (t : Tail) : List (List TokenKind) :=
  t.toList.map Binding.kinds ++ if t.comma then [[]] else []

theorem Tail.pairKinds_eq (t : Tail) : t.pairKinds = [.comma].intercalate t.pieces := by
  obtain ⟨b, bs, comma⟩ := t
  induction bs generalizing b with
  | nil => cases comma <;> simp [pairKinds, pieces, moreKinds, toList]
  | cons b' bs ih =>
    rw [Outline.pairKinds_cons b ⟨b', bs, comma⟩, ih]
    simp [pieces, toList, List.intercalate_cons_cons]

theorem Tail.comma_notMem_pieces (t : Tail) : ∀ ks ∈ t.pieces, .comma ∉ ks := by
  have hpairs : ∀ ks ∈ t.toList.map Binding.kinds, .comma ∉ ks := by
    intro ks hks
    obtain ⟨b, -, rfl⟩ := List.mem_map.1 hks
    exact Outline.comma_notMem_kinds b
  intro ks hks
  rcases List.mem_append.1 hks with hks | hks
  · exact hpairs ks hks
  · cases hcomma : t.comma <;> simp_all

end Grammar

theorem append_cons_inj_of_notMem {α : Type} {x : α} {a b c d : List α} (ha : x ∉ a) (hb : x ∉ b)
    (h : a ++ x :: c = b ++ x :: d) : a = b ∧ c = d := by
  rcases List.append_eq_append_iff.1 h with ⟨m, rfl, hm⟩ | ⟨m, rfl, hm⟩
  · cases m with
    | nil => simpa using hm
    | cons y m => simp_all
  · cases m with
    | nil => simpa [eq_comm] using hm
    | cons y m => simp_all

theorem filter_pieces {α : Type} {ls more : List (List α)} (h : ∀ l ∈ ls, l ≠ [])
    (hmore : ∀ l ∈ more, l = []) : (ls ++ more).filter (!·.isEmpty) = ls := by
  rw [List.filter_append, List.filter_eq_self.2 fun l hl => by simpa using h l hl,
    List.filter_eq_nil_iff.2 fun l hl => by simpa using hmore l hl, List.append_nil]

namespace TailCut

theorem comma_notMem_pieces (k : TailCut) : ∀ ks ∈ k.pieces, .comma ∉ ks := by
  intro ks hks
  rcases List.mem_append.1 hks with hks | hks
  · obtain ⟨p, hp, rfl⟩ := List.mem_map.1 hks
    exact (k.spells_pair p hp).2.2
  · split at hks <;> simp_all

/-- The tokens of a cut line are derived from a tree whose head is the head of the cut and whose
pairs are the pairs of the cut. -/
theorem kinds_eq_iff {k : TailCut} {l : Line} : l.kinds = k.kinds ↔
    l.headKinds = kindsOf k.head ∧ ∃ t, l.tail = some t ∧
      t.toList.map Binding.kinds = k.pairs.map kindsOf ∧ t.comma = decide (k.stop ≠ []) := by
  have hbinding : ∀ {t : Tail}, ∀ ks ∈ t.toList.map Binding.kinds, ks ≠ [] := by
    intro t ks hks
    obtain ⟨b, -, rfl⟩ := List.mem_map.1 hks
    exact b.kinds_ne_nil
  have hpair : ∀ ks ∈ k.pairs.map kindsOf, ks ≠ [] := by
    intro ks hks
    obtain ⟨p, hp, rfl⟩ := List.mem_map.1 hks
    exact (k.spells_pair p hp).2.1
  rw [l.kinds_eq, kinds]
  constructor
  · intro h
    cases htail : l.tail with
    | none =>
      rw [htail, tailKinds, Option.elim, List.append_nil] at h
      exact absurd (by simp [h]) l.pipe_notMem_headKinds
    | some t =>
      rw [htail] at h
      obtain ⟨hhead, hrest⟩ :=
        append_cons_inj_of_notMem l.pipe_notMem_headKinds k.spells_head.2 h
      have hpieces : t.pieces = k.pieces := by
        rw [t.pairKinds_eq] at hrest
        have hsplit := congrArg (List.splitOn TokenKind.comma) hrest
        rwa [List.splitOn_intercalate _ t.comma_notMem_pieces (by simp [Tail.pieces, Tail.toList]),
          List.splitOn_intercalate _ k.comma_notMem_pieces (by simp [pieces, k.pairs_ne_nil])]
          at hsplit
      have hsame : t.toList.map Binding.kinds = k.pairs.map kindsOf := by
        calc t.toList.map Binding.kinds
            = t.pieces.filter (!·.isEmpty) := (filter_pieces hbinding (by split <;> simp)).symm
          _ = k.pieces.filter (!·.isEmpty) := by rw [hpieces]
          _ = k.pairs.map kindsOf := filter_pieces hpair (by split <;> simp)
      refine ⟨hhead, t, rfl, hsame, ?_⟩
      rw [Tail.pieces, pieces, hsame, List.append_cancel_left_eq] at hpieces
      by_cases hstop : k.stop = [] <;> cases hcomma : t.comma <;> simp_all
  · rintro ⟨hhead, t, htail, hsame, hcomma⟩
    rw [hhead, htail, tailKinds, Option.elim, t.pairKinds_eq, Tail.pieces, hsame, hcomma, pieces]
    by_cases hstop : k.stop = [] <;> simp [hstop]

/-! ## Reading a reordered line -/

/-- The intent that the text of a pair names. -/
def intentOf? (p : List Char) : Option Intent :=
  match Outline.Segment.pair? ⟨(kindsOf p).map (⟨·, 1⟩), none⟩ with
  | .ok (some pair) => Outline.namedIntent? (pair.key, pair.value)
  | _ => none

/-- The intents that the pairs name, in their order. -/
def intents (k : TailCut) : List Intent :=
  k.pairs.filterMap intentOf?

theorem intentOf?_binding {b : Binding} {p : List Char} (h : kindsOf p = b.kinds) :
    intentOf? p = Outline.namedIntent? b.toPair := by
  obtain ⟨column, hpair⟩ : ∃ column, Outline.Segment.pair? ⟨(kindsOf p).map (⟨·, 1⟩), none⟩ =
      .ok (some ⟨b.toPair.1, b.toPair.2, column⟩) :=
    Outline.pair?_binding (by simp [h, Function.comp_def])
  rw [intentOf?, hpair]

theorem intents_eq {k : TailCut} {bs : List Binding}
    (h : bs.map Binding.kinds = k.pairs.map kindsOf) :
    k.intents = (bs.map Binding.toPair).filterMap Outline.namedIntent? := by
  unfold intents
  generalize k.pairs = ps at h
  induction bs generalizing ps with
  | nil =>
    obtain rfl := List.map_eq_nil_iff.1 h.symm
    rfl
  | cons b bs ih =>
    obtain ⟨p, ps, rfl, hp, hps⟩ := List.map_eq_cons_iff.1 h.symm
    simp only [List.map_cons, List.filterMap_cons, intentOf?_binding hp, ih ps hps.symm]

end TailCut

namespace Statement

/-- A line that is spelled with some tokens says what a derivation of them says. -/
theorem parse_eq_some_iff {line : String} {ks : List TokenKind} (h : Spells ks line.toList)
    {s : Statement} : parse line = .ok (some s) ↔
      isRemark line.toList = false ∧ ∃ l : Line, l.kinds = ks ∧ l.statement? = some s := by
  obtain ⟨ts, hscan, rfl⟩ := Token.scan_of_spells h
  rw [parse, hscan]
  cases hremark : isRemark line.toList with
  | true => simp
  | false =>
    rw [if_neg Bool.false_ne_true]
    constructor
    · intro hparse
      obtain ⟨_, hts, hparse⟩ := bind_eq_ok_iff.1 hparse
      cases hts
      obtain ⟨s', hs', hparse⟩ := bind_eq_ok_iff.1 hparse
      cases hparse
      exact ⟨rfl, exists_line_of_ofTokens hs'⟩
    · rintro ⟨-, l, hkinds, hs⟩
      exact bind_eq_ok_iff.2 ⟨ts, rfl, bind_eq_ok_iff.2 ⟨s, ofTokens_of_line hkinds hs, rfl⟩⟩

end Statement

namespace TailCut

open Statement (parse isRemark)

/-- Whether a line is a remark is told by what stands before its bar. -/
theorem isRemark_bar (head rest rest' : List Char) :
    isRemark (head ++ '|' :: rest) = isRemark (head ++ '|' :: rest') := by
  have htrim (rest : List Char) :
      Text.trimStart (head ++ '|' :: rest) = Text.trimStart head ++ '|' :: rest := by
    have hbar : Text.isBlank '|' = false := by decide
    rw [Text.trimStart, List.dropWhile_append, Text.trimStart]
    cases hhead : head.dropWhile Text.isBlank <;> simp [hbar]
  simp only [isRemark, htrim]
  rcases Text.trimStart head with _ | ⟨a, _ | ⟨b, cs⟩⟩
  · rfl
  · by_cases ha : a = '#' <;> by_cases hs : a = '/' <;> simp_all
  · by_cases ha : a = '#' <;> by_cases hs : a = '/' <;> by_cases hb : b = '/' <;> simp_all

/-- A line with its pairs in another order reads as the same statement, but that the last intent
counts. -/
theorem parse_reordered {k k' : TailCut} (h : k.Reorders k') {s : Statement}
    (hs : parse k.line = .ok (some s)) :
    parse k'.line = .ok (some { s with
      intent := k'.intents.getLast?.or (Intent.default s.family s.subject) }) := by
  obtain ⟨hhead, hstop, hperm⟩ := h
  obtain ⟨hremark, l, hkinds, hstatement⟩ := (Statement.parse_eq_some_iff k.spells_line).1 hs
  obtain ⟨hheadKinds, t, htail, hpairs, hcomma⟩ := kinds_eq_iff.1 hkinds
  -- the pairs of the tree in the new order
  obtain ⟨bs, hbs, hbsperm⟩ : ∃ bs : List Binding, k'.pairs.map kindsOf = bs.map Binding.kinds ∧
      bs.Perm t.toList := by
    have hmap : (k'.pairs.map kindsOf).Perm (t.toList.map Binding.kinds) :=
      hpairs ▸ (hperm.map kindsOf).symm
    exact (congrFun₂ (List.eq_map_comp_perm Binding.kinds) _ _).mpr hmap
  obtain ⟨b, more, rfl⟩ : ∃ b more, bs = b :: more := by
    refine List.exists_cons_of_ne_nil ?_
    rintro rfl
    exact k'.pairs_ne_nil (List.map_eq_nil_iff.1 hbs)
  let l' : Line := { l with tail := some ⟨b, more, t.comma⟩ }
  have hkinds' : l'.kinds = k'.kinds :=
    kinds_eq_iff.2 ⟨by rw [hhead]; exact hheadKinds, _, rfl, hbs.symm, by rw [hstop]; exact hcomma⟩
  obtain ⟨cards, hcards, hbuild⟩ := Option.bind_eq_some_iff.1 hstatement
  have hentries (l : Line) : Outline.entriesOf (l.outline cards).pairs =
      l.bindings.map Binding.toPair := by
    simp [Outline.entriesOf, Line.outline]
  have hentriesPerm : (Outline.entriesOf (l.outline cards).pairs).Perm
      (Outline.entriesOf (l'.outline cards).pairs) := by
    rw [hentries, hentries, Line.bindings, htail]
    exact (hbsperm.map _).symm
  have hreordered := Outline.build_reordered hentriesPerm (toOption_eq_some_iff.1 hbuild)
  have hstatement' : l'.statement? = some { s with
      intent := k'.intents.getLast?.or (Intent.default s.family s.subject) } := by
    refine Option.bind_eq_some_iff.2 ⟨cards, hcards, toOption_eq_some_iff.2 ?_⟩
    rw [intents_eq hbs.symm]
    rw [Outline.lastIntent, hentries] at hreordered
    exact hreordered
  refine (Statement.parse_eq_some_iff k'.spells_line).2 ⟨?_, l', hkinds', hstatement'⟩
  rw [← hremark, line, line, String.toList_ofList, String.toList_ofList, hhead]
  exact isRemark_bar _ _ _

/-- Every intent that a pair names can be the last. -/
theorem exists_reorders_last {k : TailCut} {i : Intent} (h : i ∈ k.intents) :
    ∃ k', k.Reorders k' ∧ k'.intents.getLast? = some i := by
  obtain ⟨p, hp, hi⟩ := List.mem_filterMap.1 h
  have hperm : k.pairs.Perm (k.pairs.erase p ++ [p]) :=
    (List.perm_cons_erase hp).trans (List.perm_append_singleton _ _).symm
  refine ⟨k.reorder _ hperm, ⟨rfl, rfl, hperm⟩, ?_⟩
  simp [intents, reorder, List.filterMap_append, hi]

theorem getLast?_eq_of_perm {α : Type} {l l' : List α} (hperm : l.Perm l')
    (h : ∀ a ∈ l, ∀ b ∈ l, a = b) : l'.getLast? = l.getLast? := by
  cases hl : l.getLast? with
  | none =>
    rw [List.getLast?_eq_none_iff] at hl ⊢
    subst hl
    exact hperm.symm.eq_nil
  | some a =>
    cases hl' : l'.getLast? with
    | none =>
      rw [List.getLast?_eq_none_iff] at hl'
      subst hl'
      rw [hperm.eq_nil] at hl
      cases hl
    | some b =>
      rw [h a (List.mem_of_getLast? hl) b (hperm.mem_iff.2 (List.mem_of_getLast? hl'))]

/-! ## Every line with a bar -/

/-- The texts of the pairs of a tail. -/
theorem exists_pairs {t : Tail} {cs : List Char} (h : Spells t.pairKinds cs) :
    ∃ pairs stop, cs = [','].intercalate pairs ++ stop ∧ pairs ≠ [] ∧
      (∀ p ∈ pairs, ∃ ks, Spells ks p ∧ ks ≠ [] ∧ .comma ∉ ks) ∧
      (stop = [] ∨ ∃ blanks, stop = ',' :: blanks ∧ Spells [] blanks) := by
  have hpair {b : Binding} {p : List Char} (hp : Spells b.kinds p) :
      ∃ ks, Spells ks p ∧ ks ≠ [] ∧ .comma ∉ ks :=
    ⟨b.kinds, hp, b.kinds_ne_nil, Outline.comma_notMem_kinds b⟩
  obtain ⟨b, bs, comma⟩ := t
  induction bs generalizing b cs with
  | nil =>
    cases comma with
    | false =>
      have h : Spells b.kinds cs := by simpa [Tail.pairKinds, moreKinds] using h
      exact ⟨[cs], [], by simp, by simp, by simpa using hpair h, .inl rfl⟩
    | true =>
      obtain ⟨p, blanks, rfl, hp, hblanks⟩ := Spells.cut (c := ',') rfl h
      exact ⟨[p], ',' :: blanks, by simp, by simp, by simpa using hpair hp,
        .inr ⟨blanks, rfl, hblanks⟩⟩
  | cons b' bs ih =>
    rw [Outline.pairKinds_cons b ⟨b', bs, comma⟩] at h
    obtain ⟨p, rest, rfl, hp, hrest⟩ := Spells.cut (c := ',') rfl h
    obtain ⟨pairs, stop, rfl, hne, hpairs, hstop⟩ := ih b' hrest
    refine ⟨p :: pairs, stop, ?_, by simp, List.forall_mem_cons.2 ⟨hpair hp, hpairs⟩, hstop⟩
    obtain ⟨q, qs, rfl⟩ := List.exists_cons_of_ne_nil hne
    simp [List.intercalate_cons_cons]

/-- A line with the parts of a statement has no bar, or it can be cut at its bar. -/
theorem exists_cut {line : String} {ts : List Token} {o : Outline}
    (hscan : Token.scan line = .ok ts) (ho : Outline.ofTokens ts = .ok o) :
    (∃ ks, Spells ks line.toList ∧ .pipe ∉ ks) ∨ ∃ k : TailCut, k.line = line := by
  have hspells := Token.spells_of_scan hscan
  obtain ⟨l, hkinds, -⟩ := Outline.exists_line_of_ofTokens ho
  rw [← hkinds, l.kinds_eq] at hspells
  cases htail : l.tail with
  | none =>
    rw [htail, tailKinds, Option.elim, List.append_nil] at hspells
    exact .inl ⟨_, hspells, l.pipe_notMem_headKinds⟩
  | some t =>
    rw [htail] at hspells
    obtain ⟨head, rest, hline, hhead, hrest⟩ := Spells.cut (c := '|') rfl hspells
    obtain ⟨pairs, stop, rfl, hne, hpairs, hstop⟩ := exists_pairs hrest
    refine .inr ⟨⟨head, pairs, stop, ⟨_, hhead, l.pipe_notMem_headKinds⟩, hne, hpairs, hstop⟩, ?_⟩
    rw [TailCut.line, ← hline, String.ofList_toList]

/-- A line that reads has the parts of its statement. -/
theorem exists_outline_of_parse {line : String} {s : Statement} (h : parse line = .ok (some s)) :
    ∃ ts o, Token.scan line = .ok ts ∧ Outline.ofTokens ts = .ok o := by
  obtain ⟨ts, hts, hs⟩ := Statement.tokens_of_parse h
  obtain ⟨o, ho, -⟩ := bind_eq_ok_iff.1 hs
  exact ⟨ts, o, hts, ho⟩

/-! ## The order of the pairs -/

/-- A line that reads, or of which only the parts are rejected, has no bar or can be cut at its bar
and commas. With the pairs of a cut line in another order, a statement stays the same but for its
intent, which is the last that a pair names; so the order is of no account exactly if no two pairs
name different intents. What is rejected is rejected in every order. -/
theorem pair_order (line : String) :
    ((∃ s, parse line = .ok (some s)) ∨
        (∃ ts o e, Token.scan line = .ok ts ∧ Outline.ofTokens ts = .ok o ∧ o.build = .error e) →
      (∃ ks, Spells ks line.toList ∧ .pipe ∉ ks) ∨ ∃ k : TailCut, k.line = line) ∧
    ∀ k : TailCut, k.line = line →
      (∀ s, parse line = .ok (some s) →
        ((∀ k', k.Reorders k' → parse k'.line = .ok (some s)) ↔
          ∀ i ∈ k.intents, ∀ j ∈ k.intents, i = j) ∧
        ∀ k', k.Reorders k' → parse k'.line = .ok (some { s with
          intent := k'.intents.getLast?.or (Intent.default s.family s.subject) })) ∧
      ∀ k', k.Reorders k' → ∀ e, parse line = .error e → ∃ e', parse k'.line = .error e' := by
  constructor
  · rintro (⟨s, hs⟩ | ⟨ts, o, e, hscan, ho, -⟩)
    · obtain ⟨ts, o, hscan, ho⟩ := exists_outline_of_parse hs
      exact exists_cut hscan ho
    · exact exists_cut hscan ho
  rintro k rfl
  refine ⟨fun s hs => ⟨⟨fun hall => ?_, fun hsame k' hk' => ?_⟩,
    fun k' hk' => parse_reordered hk' hs⟩, fun k' hk' e he => ?_⟩
  · -- each of the intents is the last in some order, and so it is that of the statement
    have hintent : ∀ i ∈ k.intents, s.intent = some i := by
      intro i hi
      obtain ⟨k', hk', hlast⟩ := exists_reorders_last hi
      have hparse := (hall k' hk').symm.trans (parse_reordered hk' hs)
      rw [Except.ok.injEq, Option.some.injEq, hlast] at hparse
      rw [hparse]
      rfl
    intro i hi j hj
    exact Option.some.inj ((hintent i hi).symm.trans (hintent j hj))
  · have hself := hs.symm.trans (parse_reordered (.refl k) hs)
    have hlast : k'.intents.getLast? = k.intents.getLast? :=
      getLast?_eq_of_perm (hk'.2.2.filterMap intentOf?) hsame
    rw [parse_reordered hk' hs, hlast]
    exact hself.symm
  · cases hparse : parse k'.line with
    | error e' => exact ⟨e', rfl⟩
    | ok r =>
      cases r with
      | some s' =>
        rw [parse_reordered hk'.symm hparse] at he
        cases he
      | none =>
        rw [Statement.parse_eq_none_iff, line, String.toList_ofList, hk'.1,
          isRemark_bar _ _ ([','].intercalate k.pairs ++ k.stop)] at hparse
        have hremark : parse k.line = .ok none := by
          rwa [Statement.parse_eq_none_iff, line, String.toList_ofList]
        rw [hremark] at he
        cases he

/-- A voice, a text with a comma in it and an intent, and a last comma: in another order the line
says the same. -/
theorem pair_order_comma :
    let s : Statement :=
      { family := .ritual, verb := .engage, subject := "walk", intent := some .crisis
        args := .ofList [("note", "a, b")], anchors := .empty
        voice := some ⟨"@sage", by decide⟩, bandwidth := none, cards := [] }
    ∃ k k' : TailCut,
      k.line = "ritual.engage \"walk\" | voice:@sage, note: \"a, b\",intent:crisis, " ∧
      k'.line = "ritual.engage \"walk\" |intent:crisis, note: \"a, b\", voice:@sage, " ∧
      k.Reorders k' ∧ parse k.line = .ok (some s) ∧ k.intents = [.crisis] ∧
      parse k'.line = .ok (some s) := by
  intro s
  let pairs := [" voice:@sage".toList, " note: \"a, b\"".toList, "intent:crisis".toList]
  let k : TailCut :=
    { head := "ritual.engage \"walk\" ".toList
      pairs
      stop := [',', ' ']
      head_spelled := ⟨_, Token.spells_kindsOf (by decide +kernel), by decide +kernel⟩
      pairs_ne_nil := List.cons_ne_nil _ _
      pairs_spelled := fun p hp => Token.IsPair.spelled (by revert p; decide +kernel)
      stop_spelled := .inr ⟨[' '], rfl, .blank rfl .done⟩ }
  let k' := k.reorder pairs.reverse (List.reverse_perm pairs).symm
  have hreorders : k.Reorders k' := ⟨rfl, rfl, (List.reverse_perm pairs).symm⟩
  have hline : k.line =
    "ritual.engage \"walk\" | voice:@sage, note: \"a, b\",intent:crisis, " := by decide +kernel
  have hline' : k'.line =
    "ritual.engage \"walk\" |intent:crisis, note: \"a, b\", voice:@sage, " := by decide +kernel
  have hk : parse k.line = .ok (some s) := by
    rw [hline]
    decide +kernel
  have hintents : k.intents = [.crisis] := by decide +kernel
  refine ⟨k, k', hline, hline', hreorders, hk, hintents, ?_⟩
  refine (((pair_order k.line).2 k rfl).1 s hk).1.2 ?_ k' hreorders
  simp [hintents]

/-- Of two intents the last one counts, so a line with its pairs in another order can say something
else. -/
theorem intents_reordered :
    let s (i : Intent) : Statement :=
      { family := .ritual, verb := .engage, subject := "walk", intent := some i, args := .empty
        anchors := .empty, voice := none, bandwidth := none, cards := [] }
    ∃ k k' : TailCut, k.Reorders k' ∧
      k.line = "ritual.engage \"walk\" | intent:crisis, intent:general" ∧
      k'.line = "ritual.engage \"walk\" | intent:general, intent:crisis" ∧
      parse k.line = .ok (some (s .general)) ∧ parse k'.line = .ok (some (s .crisis)) ∧
      (s .general).canonical ≠ (s .crisis).canonical := by
  intro s
  let pairs := [" intent:crisis".toList, " intent:general".toList]
  let k : TailCut :=
    { head := "ritual.engage \"walk\" ".toList
      pairs
      stop := []
      head_spelled := ⟨_, Token.spells_kindsOf (by decide +kernel), by decide +kernel⟩
      pairs_ne_nil := List.cons_ne_nil _ _
      pairs_spelled := fun p hp => Token.IsPair.spelled (by revert p; decide +kernel)
      stop_spelled := .inl rfl }
  let k' := k.reorder pairs.reverse (List.reverse_perm pairs).symm
  have hreorders : k.Reorders k' := ⟨rfl, rfl, (List.reverse_perm pairs).symm⟩
  have hline : k.line = "ritual.engage \"walk\" | intent:crisis, intent:general" := by
    decide +kernel
  have hline' : k'.line = "ritual.engage \"walk\" | intent:general, intent:crisis" := by
    decide +kernel
  refine ⟨k, k', hreorders, hline, hline', ?_⟩
  rw [hline, hline']
  decide +kernel

end TailCut

end RitualGate
