import Mathlib.Logic.ExistsUnique
import RitualGate.Proofs.LayoutFree

/-!
# Where errors lie

A line is refused for one of its tokens, for a part of its keyword or for one of its pairs
(`Blames`), or for a quote that is not closed (`parse_eq_error`). `Yields P Q` follows results and
errors through the reading of a line, with one lemma for each function. Whatever is blamed starts at
the column that the error names (`Laid.liesIn`), so the text that an error shows is found there. The
entries of a program are those of its lines (`mem_parseLines_iff`), in their order
(`parseLines_increasing`).
-/

namespace RitualGate

/-! ## Results and errors -/

/-- `Yields P Q x`: what `x` gives satisfies `P`, the error with which it fails satisfies `Q`. -/
inductive Yields {α : Type} (P : α → Prop) (Q : SyntaxError → Prop) : Except SyntaxError α → Prop
  | ok {a : α} (h : P a) : Yields P Q (.ok a)
  | error {e : SyntaxError} (h : Q e) : Yields P Q (.error e)

section Yields

variable {α β : Type} {P : α → Prop} {P' : β → Prop} {Q : SyntaxError → Prop}

theorem Yields.bind {x : Except SyntaxError α} {f : α → Except SyntaxError β} (h : Yields P Q x)
    (hf : ∀ a, P a → Yields P' Q (f a)) : Yields P' Q (x >>= f) := by
  cases h with
  | ok ha => exact hf _ ha
  | error he => exact .error he

theorem Yields.of_error {x : Except SyntaxError α} (h : Yields P Q x) {e : SyntaxError}
    (he : x = .error e) : Q e := by
  subst he
  cases h with
  | error h => exact h

end Yields

/-! ## What is blamed -/

/-- A pair that starts with one of some tokens. -/
def Pair.StartsIn (all : List Token) (p : Pair) : Prop :=
  ∃ t ∈ all, ∃ key rest, t.kind = .word (key ++ rest) ∧ key ≠ [] ∧ p.key = String.ofList key ∧
    p.column = t.column

/-- The errors for which a line with the tokens `all` can be refused: they lie at a token, at the
family or the verb of the first token, or at a pair. -/
inductive Blames (all : List Token) : SyntaxError → Prop
  | token {t : Token} {fault : Fault} (ht : t ∈ all)
      (hfault : fault ≠ .emptyStatement := by simp) : Blames all (t.fail fault)
  | family {head : Token} {f v : List Char} (hhead : head ∈ all.head?)
      (hkind : head.kind = .word (f ++ '.' :: v)) (hf : '.' ∉ f) :
      Blames all {
        fault := .unknownFamily (String.ofList f)
        token := String.ofList f
        column := head.column }
  | verb {head : Token} {f v : List Char} (hhead : head ∈ all.head?)
      (hkind : head.kind = .word (f ++ '.' :: v)) (hf : '.' ∉ f) :
      Blames all {
        fault := .unknownVerb (String.ofList v) (String.ofList f)
        token := String.ofList v
        column := head.column + f.length + 1 }
  | pair {p : Pair} {fault : Fault} (hp : p.StartsIn all)
      (hfault : fault ≠ .emptyStatement := by simp) : Blames all (p.fail fault)

theorem Blames.fault_ne {all : List Token} {e : SyntaxError} (h : Blames all e) :
    e.fault ≠ .emptyStatement := by
  cases h with
  | token _ hfault => exact hfault
  | family => simp
  | verb => simp
  | pair _ hfault => exact hfault

namespace Outline

variable {all : List Token}

theorem keywordOf_yields {head : Token} (hhead : head ∈ all.head?) :
    Yields (fun _ => True) (Blames all) (keywordOf head) := by
  have hmem : head ∈ all := List.mem_of_mem_head? hhead
  unfold keywordOf
  split
  · rename_i w hkind
    split
    · exact .error (.token hmem)
    · rename_i f v hsplit
      obtain ⟨rfl, hf⟩ := Text.splitOnce_eq_some hsplit
      simp only
      split
      · exact .error (.family hhead hkind hf)
      · split
        · exact .error (.verb hhead hkind hf)
        · exact .ok trivial
  · exact .error (.token hmem)

/-! ## Cards -/

theorem card_yields {t opening : Token} (ht : t ∈ all) (card : Except VocabularyError CardRef)
    {ts : List Token}
    (hend : Yields (fun r => r.2 ⊆ all) (Blames all) (readCardEnd opening ts)) :
    Yields (fun r => r.2 ⊆ all) (Blames all)
      (do
        let c ← cardAt t card
        let (cs, rest) ← readCardEnd opening ts
        return (c :: cs, rest)) := by
  have hcard : Yields (fun _ => True) (Blames all) (cardAt t card) := by
    cases card with
    | ok c => exact .ok trivial
    | error e => exact .error (.token ht)
  exact hcard.bind fun c _ => hend.bind fun r hr => .ok hr

/-- A marked card takes two tokens, so the induction is on the length. -/
theorem readCards_yields {opening : Token} (hopening : opening ∈ all) {ts : List Token}
    (h : ts ⊆ all) :
    (∀ first, Yields (fun r => r.2 ⊆ all) (Blames all) (readCards opening first ts)) ∧
      Yields (fun r => r.2 ⊆ all) (Blames all) (readCardEnd opening ts) := by
  induction hn : ts.length using Nat.strongRecOn generalizing ts with
  | ind n ih =>
    cases ts with
    | nil =>
      refine ⟨fun first => ?_, ?_⟩
      · rw [readCards]
        exact .error (.token hopening)
      · rw [readCardEnd]
        exact .error (.token hopening)
    | cons t ts =>
      obtain ⟨ht, hts⟩ := List.cons_subset.1 h
      obtain ⟨hcards, hend⟩ := ih ts.length (by simp [← hn]) hts rfl
      refine ⟨fun first => ?_, ?_⟩
      · unfold readCards
        split
        · split
          · exact .ok hts
          · exact .error (.token ht)
        · exact card_yields ht _ hend
        · split
          · cases ts with
            | nil => exact .error (.token ht)
            | cons u us =>
              have hus := (List.cons_subset.1 hts).2
              have hshort : us.length < n := by
                rw [← hn, List.length_cons, List.length_cons]
                omega
              have hend := (ih us.length hshort hus rfl).2
              dsimp only
              split
              · exact card_yields ht _ hend
              · exact card_yields ht _ hend
              · exact .error (.token ht)
          · exact card_yields ht _ hend
        · exact .error (.token ht)
      · rw [readCardEnd]
        split
        · exact hcards false
        · exact .ok hts
        · exact .error (.token ht)

theorem takeCards_yields {ts : List Token} (h : ts ⊆ all) :
    Yields (fun r => r.2 ⊆ all) (Blames all) (takeCards ts) := by
  cases ts with
  | nil => exact .ok h
  | cons t ts =>
    obtain ⟨ht, hts⟩ := List.cons_subset.1 h
    rw [takeCards]
    split
    · exact (readCards_yields ht hts).1 true
    · exact .ok h

/-! ## Pairs -/

theorem valueAfter_subset (rest : List Char) (ts : List Token) : (valueAfter rest ts).2 ⊆ ts := by
  unfold valueAfter
  split
  · cases ts with
    | nil => exact List.Subset.refl _
    | cons t ts =>
      dsimp only
      split
      · exact List.subset_cons_self _ _
      · exact List.subset_cons_self _ _
      · exact List.Subset.refl _
  · exact List.Subset.refl _

theorem keyAndValue_subset (w : List Char) (ts : List Token) : (keyAndValue w ts).2.2 ⊆ ts := by
  unfold keyAndValue
  split
  · exact valueAfter_subset _ _
  · cases ts with
    | nil => exact List.Subset.refl _
    | cons t ts =>
      dsimp only
      split
      · exact List.subset_cons_of_subset _ (valueAfter_subset _ _)
      · exact List.Subset.refl _

theorem pair?_yields {s : Segment} (h : s.tokens ++ s.comma.toList ⊆ all) :
    Yields (fun p => ∀ q ∈ p.toList, q.StartsIn all) (Blames all) s.pair? := by
  obtain ⟨htokens, hcomma⟩ := List.append_subset.1 h
  obtain ⟨ts, comma⟩ := s
  cases ts with
  | nil =>
    cases comma with
    | none => exact .ok (List.forall_mem_nil _)
    | some c => exact .error (.token (hcomma List.mem_cons_self))
  | cons t ts =>
    obtain ⟨ht, hts⟩ := List.cons_subset.1 htokens
    unfold Segment.pair?
    dsimp only
    split
    · rename_i w hkind
      obtain ⟨⟨rest, hw⟩, -⟩ := keyAndValue_key w ts
      have hbehind := keyAndValue_subset w ts
      generalize keyAndValue w ts = r at hw hbehind ⊢
      obtain ⟨key, value, behind⟩ := r
      dsimp only at hw hbehind ⊢
      split
      · exact .error (.token ht)
      · rename_i hkey
        split
        · refine .ok fun q hq => ?_
          obtain rfl := List.mem_singleton.1 hq
          exact ⟨t, ht, key, rest, hw ▸ hkind, hkey, rfl, rfl⟩
        · exact .error (.token (hts (hbehind List.mem_cons_self)))
    · exact .error (.token ht)

theorem pairsOf_yields {ss : List Segment} (h : ∀ s ∈ ss, s.tokens ++ s.comma.toList ⊆ all) :
    Yields (fun ps => ∀ p ∈ ps, p.StartsIn all) (Blames all) (pairsOf ss) := by
  induction ss with
  | nil => exact .ok (List.forall_mem_nil _)
  | cons s ss ih =>
    obtain ⟨hs, hss⟩ := List.forall_mem_cons.1 h
    rw [pairsOf]
    exact (pair?_yields hs).bind fun p hp => (ih hss).bind fun ps hps =>
      .ok (List.forall_mem_append.2 ⟨hp, hps⟩)

theorem takePairs_yields {ts : List Token} (h : ts ⊆ all) :
    Yields (fun ps => ∀ p ∈ ps, p.StartsIn all) (Blames all) (takePairs ts) := by
  cases ts with
  | nil => exact .ok (List.forall_mem_nil _)
  | cons t ts =>
    obtain ⟨ht, hts⟩ := List.cons_subset.1 h
    rw [takePairs]
    split
    · rw [readPairs]
      split
      · exact .error (.token ht)
      · exact pairsOf_yields fun s hs => List.Subset.trans (subset_of_mem_segments hs) hts
    · exact .error (.token ht)

/-! ## Outlines -/

/-- An outline whose parts are tokens of a line. -/
structure FoundIn (all : List Token) (o : Outline) : Prop where
  head : o.head ∈ all
  subject : ∀ s ∈ o.subject, s.2 ∈ all
  pairs : ∀ p ∈ o.pairs, p.StartsIn all

theorem takeSubject_mem (ts : List Token) : ∀ s ∈ (takeSubject ts).1, s.2 ∈ ts := by
  cases ts with
  | nil => simp [takeSubject]
  | cons t ts =>
    rw [takeSubject]
    split <;> simp

theorem ofTokens_yields {head : Token} {ts : List Token} :
    Yields (FoundIn (head :: ts)) (Blames (head :: ts)) (ofTokens (head :: ts)) := by
  have hts : ts ⊆ head :: ts := List.subset_cons_self _ _
  have hrest := List.Subset.trans (takeSubject_subset ts) hts
  rw [ofTokens]
  refine (keywordOf_yields rfl).bind fun fv _ => (takeCards_yields hrest).bind fun r hr => ?_
  exact (takePairs_yields hr).bind fun ps hps =>
    .ok ⟨List.mem_cons_self, fun s hs => hts (takeSubject_mem ts s hs), hps⟩

theorem subjectAs_yields {o : Outline} (ho : o.FoundIn all) {α : Type} (what : String)
    (ofText : String → Except VocabularyError α) :
    Yields (fun _ => True) (Blames all) (o.subjectAs what ofText) := by
  have hsubject : Yields (fun s => s.2 ∈ all) (Blames all) (o.requireSubject what) := by
    unfold requireSubject
    split
    · rename_i s hs
      exact .ok (ho.subject s hs)
    · exact .error (.token ho.head)
  refine hsubject.bind fun s hs => ?_
  dsimp only
  split
  · exact .ok trivial
  · exact .error (.token hs)

theorem withSubject_yields {o : Outline} (ho : o.FoundIn all) :
    Yields (fun _ => True) (Blames all) o.withSubject := by
  unfold withSubject
  split
  · exact (subjectAs_yields ho _ _).bind fun _ _ => .ok trivial
  · exact (subjectAs_yields ho _ _).bind fun _ _ => .ok trivial
  · exact (subjectAs_yields ho _ _).bind fun _ _ => .ok trivial
  · split
    · exact .error (.token ho.head)
    · exact .ok trivial
  · exact .ok trivial

theorem valueAs_yields {p : Pair} (hp : p.StartsIn all) {α : Type}
    (ofText : String → Except VocabularyError α) :
    Yields (fun _ => True) (Blames all) (p.valueAs ofText) := by
  unfold Pair.valueAs
  split
  · exact .ok trivial
  · exact .error (.pair hp)

theorem apply_yields {p : Pair} (hp : p.StartsIn all) (s : Statement) :
    Yields (fun _ => True) (Blames all) (p.apply s) := by
  unfold Pair.apply
  split
  · refine (valueAs_yields hp _).bind fun persona _ => ?_
    split
    · exact .error (.pair hp)
    · exact .ok trivial
  split
  · refine (valueAs_yields hp _).bind fun level _ => ?_
    split
    · exact .error (.pair hp)
    · exact .ok trivial
  split
  · exact (valueAs_yields hp _).bind fun _ _ => .ok trivial
  split
  · exact (valueAs_yields hp _).bind fun _ _ => .ok trivial
  split
  · exact .error (.pair hp)
  · exact .ok trivial

theorem applyPairs_yields {ps : List Pair} (h : ∀ p ∈ ps, p.StartsIn all) (s : Statement) :
    Yields (fun _ => True) (Blames all) (applyPairs s ps) := by
  induction ps generalizing s with
  | nil => exact .ok trivial
  | cons p ps ih =>
    obtain ⟨hp, hps⟩ := List.forall_mem_cons.1 h
    exact (apply_yields hp s).bind fun s' _ => ih hps s'

end Outline

namespace Statement

/-- The reading of tokens fails at the tokens. -/
theorem ofTokens_yields (head : Token) (ts : List Token) :
    Yields (fun _ => True) (Blames (head :: ts)) (ofTokens (head :: ts)) := by
  refine Outline.ofTokens_yields.bind fun o ho => ?_
  exact (Outline.withSubject_yields ho).bind fun s _ => Outline.applyPairs_yields ho.pairs s

/-- A line is refused for a quote that is not closed, or for what its tokens say. -/
theorem parse_eq_error {line : String} {e : SyntaxError} (h : parse line = .error e) :
    Token.scan line = .error e ∨ ∃ ts, Token.scan line = .ok ts ∧ Blames ts e := by
  unfold parse at h
  split at h
  · cases h
  · rename_i hremark
    cases hscan : Token.scan line with
    | error e' =>
      rw [hscan] at h
      cases h
      exact .inl rfl
    | ok ts =>
      rw [hscan] at h
      refine .inr ⟨ts, rfl, ?_⟩
      cases ts with
      | nil => exact absurd (isRemark_of_spells (Token.spells_of_scan hscan)) hremark
      | cons head ts =>
        refine Yields.of_error (P := fun _ => True) ?_ h
        exact (ofTokens_yields head ts).bind fun _ _ => .ok trivial

end Statement

/-! ## Places in a line -/

/-- An error lies in the characters of a line: between its first column and the one behind its last,
and the text that it shows, if any, starts with the character at its column. -/
structure SyntaxError.LiesIn (cs : List Char) (e : SyntaxError) : Prop where
  column_pos : 1 ≤ e.column
  column_le : e.column ≤ cs.length + 1
  char : e.token ≠ "" → ∃ c, cs[e.column - 1]? = some c ∧ e.token.toList.head? = some c

/-- An error lies where its text, or one that starts like it, stands. -/
theorem SyntaxError.liesIn_append {before behind : List Char} {e : SyntaxError}
    (hcolumn : e.column = 1 + before.length)
    (hhead : e.token ≠ "" → e.token.toList.head? = behind.head?) : e.LiesIn (before ++ behind) := by
  refine ⟨by omega, by rw [hcolumn, List.length_append]; omega, fun hne => ?_⟩
  have hlist : e.token.toList ≠ [] := mt String.toList_eq_nil_iff.1 hne
  obtain ⟨c, cs, hcs⟩ := List.exists_cons_of_ne_nil hlist
  have hc : e.token.toList.head? = some c := by rw [hcs, List.head?_cons]
  refine ⟨c, ?_, hc⟩
  rw [hcolumn, Nat.add_sub_cancel_left, List.getElem?_append_right (Nat.le_refl _), Nat.sub_self,
    ← List.head?_eq_getElem?, ← hhead hne, hc]

namespace Token

theorem Lexeme.eq_of_word {w text : List Char} (h : Lexeme (.word w) text) : text = w := by
  cases h with
  | mark hk => exact absurd rfl (punctuation?_ne_word hk w)
  | word => rfl

/-- A token is shown with the character first with which it is written first. -/
theorem Lexeme.head?_describe {t : Token} {text : List Char} (h : Lexeme t.kind text) :
    t.describe.toList.head? = text.head? := by
  obtain ⟨k, column⟩ := t
  cases h with
  | mark hk =>
    rcases punctuation?_cases hk with ⟨rfl, rfl⟩ | ⟨rfl, rfl⟩ | ⟨rfl, rfl⟩ | ⟨rfl, rfl⟩ <;>
      simp [describe]
  | quoted hb => simp [describe]
  | word => simp [describe]

variable {ts : List Token} {cs : List Char} {e : SyntaxError}

/-- An error at tokens that are laid out lies where they are. -/
theorem Laid.liesIn (hlaid : Laid 1 ts cs) (h : Blames ts e) : e.LiesIn cs := by
  cases h with
  | @token t fault ht =>
    obtain ⟨before, text, behind, rfl, htext, hcolumn⟩ := hlaid.starts t ht
    refine SyntaxError.liesIn_append hcolumn fun _ => ?_
    rw [List.head?_append_of_ne_nil _ htext.ne_nil]
    exact htext.head?_describe
  | @family head f v hhead hkind =>
    obtain ⟨before, text, behind, rfl, htext, hcolumn⟩ :=
      hlaid.starts head (List.mem_of_mem_head? hhead)
    obtain rfl := (hkind ▸ htext).eq_of_word
    refine SyntaxError.liesIn_append hcolumn fun hne => ?_
    have hf : f ≠ [] := mt String.ofList_eq_empty_iff.2 hne
    rw [String.toList_ofList, List.append_assoc, List.head?_append_of_ne_nil _ hf]
  | @verb head f v hhead hkind =>
    obtain ⟨before, text, behind, rfl, htext, hcolumn⟩ :=
      hlaid.starts head (List.mem_of_mem_head? hhead)
    obtain rfl := (hkind ▸ htext).eq_of_word
    -- the verb stands behind the family and the dot
    have hline : before ++ (f ++ '.' :: v ++ behind) = before ++ f ++ ['.'] ++ (v ++ behind) := by
      simp
    rw [hline]
    refine SyntaxError.liesIn_append ?_ fun hne => ?_
    · simp only [hcolumn, List.length_append, List.length_singleton]
      omega
    · have hv : v ≠ [] := mt String.ofList_eq_empty_iff.2 hne
      rw [String.toList_ofList, List.head?_append_of_ne_nil _ hv]
  | @pair p fault hp =>
    obtain ⟨t, ht, key, rest, hkind, hkey, hpkey, hpcolumn⟩ := hp
    obtain ⟨before, text, behind, rfl, htext, hcolumn⟩ := hlaid.starts t ht
    obtain rfl := (hkind ▸ htext).eq_of_word
    refine SyntaxError.liesIn_append (hpcolumn.trans hcolumn) fun _ => ?_
    simp only [Pair.fail, hpkey, String.toList_append, String.toList_ofList, List.append_assoc]
    rw [List.head?_append_of_ne_nil _ hkey, List.head?_append_of_ne_nil _ hkey]

/-- Only an error at a part of the keyword shows no text, and then there is nothing on one side of
the first dot. -/
theorem Laid.keyword_of_empty (hlaid : Laid 1 ts cs) (h : Blames ts e) (hempty : e.token = "") :
    ∃ head f v, head ∈ ts.head? ∧ head.kind = .word (f ++ '.' :: v) ∧ '.' ∉ f ∧
      (f = [] ∨ v = []) := by
  cases h with
  | @token t fault ht =>
    obtain ⟨before, text, behind, -, htext, -⟩ := hlaid.starts t ht
    have hhead := htext.head?_describe
    rw [show t.describe = "" from hempty] at hhead
    exact absurd (List.head?_eq_none_iff.1 hhead.symm) htext.ne_nil
  | @family head f v hhead hkind hf =>
    exact ⟨head, f, v, hhead, hkind, hf, .inl (String.ofList_eq_empty_iff.1 hempty)⟩
  | @verb head f v hhead hkind hf =>
    exact ⟨head, f, v, hhead, hkind, hf, .inr (String.ofList_eq_empty_iff.1 hempty)⟩
  | @pair p fault hp => simp [Pair.fail] at hempty

/-- A quote that is not closed is found where it opens. -/
theorem liesIn_of_scan {line : String} (h : scan line = .error e) : e.LiesIn line.toList := by
  obtain ⟨-, before, rest, hline, -, -, rfl⟩ := exists_unclosed_of_scanFrom h
  rw [hline]
  exact SyntaxError.liesIn_append rfl fun _ => by simp [unterminated]

end Token

/-! ## The fault of an empty line -/

/-- Texts differ if one has a character that the other lacks. -/
theorem ne_of_mem_toList {s t : String} (c : Char) (hs : c ∈ s.toList) (ht : c ∉ t.toList) :
    s ≠ t :=
  fun h => ht (h ▸ hs)

theorem VocabularyError.message_ne (e : VocabularyError) : e.message ≠ "empty statement" := by
  cases e with
  | emptyCardRef => decide
  | _ => exact ne_of_mem_toList '\'' (by unfold message; simp) (by decide)

/-- No other fault is worded like that of an empty line. -/
theorem Fault.message_ne {fault : Fault} (h : fault ≠ .emptyStatement) :
    fault.message ≠ "empty statement" := by
  cases fault with
  | emptyStatement => exact absurd rfl h
  | vocabulary e => exact e.message_ne
  | missingSubject => exact ne_of_mem_toList 'q' (by unfold message; simp) (by decide)
  | unknownFamily | unknownVerb | conflictingVoice | conflictingBandwidth | duplicateArgument =>
    exact ne_of_mem_toList '\'' (by unfold message; simp) (by decide)
  | _ => decide

/-! ## Lines of a program -/

/-- The entry of a line with a number in its program, if it says something. -/
def parsedLine? (n : Nat) (line : String) : Option ParsedLine :=
  match Statement.parse line with
  | .ok none => none
  | .ok (some s) => some ⟨n, .ok s⟩
  | .error e => some ⟨n, .error (e.onLine n)⟩

theorem parsedLine?_eq_none_iff {n : Nat} {line : String} :
    parsedLine? n line = none ↔ Statement.parse line = .ok none := by
  unfold parsedLine?
  split <;> simp_all

theorem parsedLine?_eq_some {n : Nat} {line : String} {p : ParsedLine}
    (h : parsedLine? n line = some p) :
    p.line = n ∧ ((∃ s, p.result = .ok s ∧ Statement.parse line = .ok (some s)) ∨
      ∃ e, p.result = .error (e.onLine n) ∧ Statement.parse line = .error e) := by
  unfold parsedLine? at h
  split at h
  · cases h
  · rename_i s hparse
    cases h
    exact ⟨rfl, .inl ⟨s, rfl, hparse⟩⟩
  · rename_i e hparse
    cases h
    exact ⟨rfl, .inr ⟨e, rfl, hparse⟩⟩

theorem parseLines_cons (n : Nat) (l : String) (ls : List String) :
    parseLines n (l :: ls) = (parsedLine? n l).toList ++ parseLines (n + 1) ls := by
  rw [parseLines, parsedLine?]
  rcases Statement.parse l with e | _ | s <;> rfl

/-- The entries of a program are those of its lines. -/
theorem mem_parseLines_iff {n : Nat} {ls : List String} {p : ParsedLine} :
    p ∈ parseLines n ls ↔ ∃ i l, ls[i]? = some l ∧ parsedLine? (i + n) l = some p := by
  induction ls generalizing n with
  | nil => simp [parseLines]
  | cons l ls ih =>
    rw [parseLines_cons, List.mem_append, Option.mem_toList, ih]
    constructor
    · rintro (h | ⟨i, l', hl', h⟩)
      · exact ⟨0, l, rfl, by rwa [Nat.zero_add]⟩
      · exact ⟨i + 1, l', hl', by rwa [Nat.add_right_comm]⟩
    · rintro ⟨i, l', hl', h⟩
      cases i with
      | zero =>
        cases hl'
        exact .inl (by rwa [Nat.zero_add] at h)
      | succ i => exact .inr ⟨i, l', hl', by rwa [Nat.add_right_comm] at h⟩

theorem parseLines_increasing (n : Nat) (ls : List String) :
    ((parseLines n ls).map ParsedLine.line).Pairwise (· < ·) := by
  induction ls generalizing n with
  | nil => exact .nil
  | cons l ls ih =>
    rw [parseLines_cons]
    cases hl : parsedLine? n l with
    | none => exact ih (n + 1)
    | some p =>
      refine List.Pairwise.cons (fun k hk => ?_) (ih (n + 1))
      obtain ⟨q, hq, rfl⟩ := List.mem_map.1 hk
      obtain ⟨i, l', -, hq⟩ := mem_parseLines_iff.1 hq
      rw [(parsedLine?_eq_some hl).1, (parsedLine?_eq_some hq).1]
      omega

/-- Entries of a program with the same number are the same. -/
theorem parseLines_unique {n : Nat} {ls : List String} {p q : ParsedLine}
    (hp : p ∈ parseLines n ls) (hq : q ∈ parseLines n ls) (h : p.line = q.line) : p = q := by
  obtain ⟨i, l, hl, hp⟩ := mem_parseLines_iff.1 hp
  obtain ⟨j, l', hl', hq⟩ := mem_parseLines_iff.1 hq
  have hij : i = j := by
    rw [(parsedLine?_eq_some hp).1, (parsedLine?_eq_some hq).1] at h
    omega
  subst hij
  cases hl.symm.trans hl'
  exact Option.some.inj (hp.symm.trans hq)

namespace Statement

variable {line : String} {e : SyntaxError}

theorem liesIn_of_parse (h : parse line = .error e) : e.LiesIn line.toList := by
  rcases parse_eq_error h with hscan | ⟨ts, hscan, hblames⟩
  · exact Token.liesIn_of_scan hscan
  · exact (Token.scanFrom_eq_ok_iff.1 hscan).liesIn hblames

theorem keyword_of_parse (h : parse line = .error e) (hempty : e.token = "") :
    ∃ head ts f v, Token.scan line = .ok (head :: ts) ∧ head.kind = .word (f ++ '.' :: v) ∧
      '.' ∉ f ∧ (f = [] ∨ v = []) := by
  rcases parse_eq_error h with hscan | ⟨ts, hscan, hblames⟩
  · obtain ⟨_, _, _, _, _, _, rfl⟩ := Token.exists_unclosed_of_scanFrom hscan
    exact absurd hempty (by simp [Token.unterminated])
  · obtain ⟨head, f, v, hhead, hkeyword⟩ :=
      (Token.scanFrom_eq_ok_iff.1 hscan).keyword_of_empty hblames hempty
    obtain ⟨ts, rfl⟩ := List.head?_eq_some_iff.1 hhead
    exact ⟨head, ts, f, v, hscan, hkeyword⟩

theorem fault_of_parse (h : parse line = .error e) : e.fault ≠ .emptyStatement := by
  rcases parse_eq_error h with hscan | ⟨ts, -, hblames⟩
  · obtain ⟨_, _, _, _, _, _, rfl⟩ := Token.exists_unclosed_of_scanFrom hscan
    simp [Token.unterminated]
  · exact hblames.fault_ne

/-- An error of a line lies between the first column and the one behind the last, and what it shows
starts there. It shows nothing only where the keyword has nothing on one side of its first dot, and
it never says that the line is empty. A program has one entry for each line that says something, in
the order of the lines: what the line says, or its error with the number of the line. -/
theorem errors_placed :
    (∀ line e, parse line = .error e →
      1 ≤ e.column ∧ e.column ≤ line.length + 1 ∧
      (e.token ≠ "" → ∃ c, line.toList[e.column - 1]? = some c ∧ e.token.toList.head? = some c) ∧
      (e.token = "" → ∃ head ts f v, Token.scan line = .ok (head :: ts) ∧
        head.kind = .word (f ++ '.' :: v) ∧ '.' ∉ f ∧ (f = [] ∨ v = [])) ∧
      e.fault.message ≠ "empty statement") ∧
    ∀ text, let ps := parseProgram text
      (∀ p ∈ ps, ∀ e, p.result = .error e → e.line = some p.line) ∧
      (ps.map ParsedLine.line).Pairwise (· < ·) ∧
      (∀ i l, (Text.lines text)[i]? = some l → parse l ≠ .ok none →
        ∃! p, p ∈ ps ∧ p.line = i + 1) ∧
      ∀ p ∈ ps, ∃ i l, (Text.lines text)[i]? = some l ∧ p.line = i + 1 ∧
        ((∃ s, p.result = .ok s ∧ parse l = .ok (some s)) ∨
          ∃ e, p.result = .error { e with line := some p.line } ∧ parse l = .error e) := by
  refine ⟨fun line e h => ?_, fun text => ⟨fun p hp e he => ?_, parseLines_increasing _ _,
    fun i l hl hparse => ?_, fun p hp => ?_⟩⟩
  · have hlies := liesIn_of_parse h
    rw [← String.length_toList]
    exact ⟨hlies.column_pos, hlies.column_le, hlies.char, keyword_of_parse h,
      Fault.message_ne (fault_of_parse h)⟩
  · obtain ⟨i, l, -, hentry⟩ := mem_parseLines_iff.1 hp
    obtain ⟨hline, ⟨s, hs, -⟩ | ⟨e', he', -⟩⟩ := parsedLine?_eq_some hentry
    · cases hs.symm.trans he
    · cases he'.symm.trans he
      rw [hline, SyntaxError.onLine]
  · have hsome : parsedLine? (i + 1) l ≠ none := mt parsedLine?_eq_none_iff.1 hparse
    obtain ⟨p, hentry⟩ := Option.ne_none_iff_exists'.1 hsome
    have hp : p ∈ parseProgram text := mem_parseLines_iff.2 ⟨i, l, hl, hentry⟩
    have hline := (parsedLine?_eq_some hentry).1
    exact ⟨p, ⟨hp, hline⟩, fun q hq => parseLines_unique hq.1 hp (hq.2.trans hline.symm)⟩
  · obtain ⟨i, l, hl, hentry⟩ := mem_parseLines_iff.1 hp
    obtain ⟨hline, hresult⟩ := parsedLine?_eq_some hentry
    refine ⟨i, l, hl, hline, ?_⟩
    rw [hline]
    exact hresult

/-- A pair whose value is the next token, a verb that is missing behind its dot, and the last line
of a program that begins with a remark. -/
theorem errors_placed_program :
    let line := "ritual.engage | voice: sage"
    let bare := "ritual."
    let text := "# remark\nritual.engage\nritual.engage \"x"
    let e : SyntaxError := ⟨.vocabulary (.personaWithoutSign "sage"), "voice:sage", 17, none⟩
    let e' : SyntaxError := ⟨.unknownVerb "" "ritual", "", 8, none⟩
    parse line = .error e ∧
      (∃ c, line.toList[e.column - 1]? = some c ∧ e.token.toList.head? = some c) ∧
      parse bare = .error e' ∧ e'.column = bare.length + 1 ∧
      (∃ head ts f v, Token.scan bare = .ok (head :: ts) ∧ head.kind = .word (f ++ '.' :: v) ∧
        '.' ∉ f ∧ (f = [] ∨ v = [])) ∧
      ∃! p, p ∈ parseProgram text ∧ p.line = 3 := by
  intro line bare text e e'
  obtain ⟨hplaced, hprogram⟩ := errors_placed
  have hline : parse line = .error e := by decide +kernel
  have hbare : parse bare = .error e' := by decide +kernel
  obtain ⟨-, -, hchar, -, -⟩ := hplaced line e hline
  obtain ⟨-, -, -, hkeyword, -⟩ := hplaced bare e' hbare
  obtain ⟨-, -, hentry, -⟩ := hprogram text
  exact ⟨hline, hchar (by decide), hbare, by decide +kernel, hkeyword rfl,
    hentry 2 "ritual.engage \"x" (by decide +kernel) (by decide +kernel)⟩

end Statement

end RitualGate
