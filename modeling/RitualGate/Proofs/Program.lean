import RitualGate.Command.Program
import RitualGate.Host.World
import RitualGate.Proofs.Bytes
import RitualGate.Proofs.Derivation

/-!
# Canonical programs

The canonical text of a program has a line for each of its statements and reads as them
(`canonicalText_faithful`). A line of a program holds no line feed, so neither do the texts of the
statement that it says (`oneLine_of_parse`), and then the canonical text of the statement is one
line (`tidy_canonical`).
-/

namespace RitualGate

open Grammar

/-! ## The texts of a line -/

namespace Grammar

/-- The id of an item stands in its tokens. -/
theorem Item.lf_notMem_id {i : Item} {text : String} (hi : ∀ k ∈ i.kinds, '\n' ∉ k.chars)
    (h : i.card = .ok (.id text)) : '\n' ∉ text.toList := by
  have word {w : List Char} (hw : '\n' ∉ w)
      (h : CardRef.ofWord (String.ofList w) = .ok (.id text)) : '\n' ∉ text.toList := by
    intro hlf
    have := CardRef.subset_of_ofWord h hlf
    rw [String.toList_ofList] at this
    exact hw this
  have quoted {q : List Char} (hq : '\n' ∉ q)
      (h : (.ok (.id (String.ofList q)) : Except VocabularyError CardRef) = .ok (.id text)) :
      '\n' ∉ text.toList := by
    cases h
    rwa [String.toList_ofList]
  cases i with
  | word w _ => exact word (hi (.word w) (by simp [kinds])) h
  | quoted q _ => exact quoted (hi (.quoted q) (by simp [kinds])) h
  | markedWord w => exact word (hi (.word w) (by simp [kinds])) h
  | markedQuoted q _ => exact quoted (hi (.quoted q) (by simp [kinds])) h

/-- Every reference is that of an item. -/
theorem exists_item_of_read {is : List Item} {cards : List CardRef} (h : Read is cards)
    {c : CardRef} (hc : c ∈ cards) : ∃ i ∈ is, i.card = .ok c := by
  induction h with
  | nil => cases hc
  | cons hcard _ ih =>
    rcases List.mem_cons.1 hc with rfl | hc
    · exact ⟨_, List.mem_cons_self, hcard⟩
    · obtain ⟨i, hi, hcard⟩ := ih hc
      exact ⟨i, List.mem_cons_of_mem _ hi, hcard⟩

/-- The value of a pair stands in its tokens, or they do not say it. -/
theorem Binding.lf_notMem_value {b : Binding} (hb : ∀ k ∈ b.kinds, '\n' ∉ k.chars) :
    '\n' ∉ b.value := by
  have piece {p : Option Piece} (hp : ∀ k ∈ (p.map Piece.kind).toList, '\n' ∉ k.chars) :
      '\n' ∉ p.elim [] Piece.chars := by
    cases p with
    | none => exact List.not_mem_nil
    | some p =>
      have hp := hp p.kind (by simp)
      cases p <;> exact hp
  cases b with
  | joined k v hv =>
    have hword : '\n' ∉ k.chars ++ ':' :: v := hb (.word _) List.mem_cons_self
    exact fun hlf => hword (List.mem_append_right _ (List.mem_cons_of_mem _ hlf))
  | ended k p => exact piece (List.forall_mem_cons.1 hb).2
  | apart k v hv =>
    have hword : '\n' ∉ ':' :: v := hb (.word _) (by simp [kinds])
    exact fun hlf => hword (List.mem_cons_of_mem _ hlf)
  | parted k p => exact piece (List.forall_mem_cons.1 (List.forall_mem_cons.1 hb).2).2
  | flag k =>
    rw [value]
    decide

theorem subset_moreKinds {α : Type} {kinds : α → List TokenKind} {as : List α} {a : α}
    (h : a ∈ as) : kinds a ⊆ moreKinds kinds as :=
  fun _ hk => List.mem_flatMap.2 ⟨a, h, List.mem_cons_of_mem _ hk⟩

namespace Line

theorem quoted_mem_kinds {l : Line} {q : List Char} (h : l.subject = some q) :
    .quoted q ∈ l.kinds := by
  simp [kinds, h]

theorem item_subset_kinds {l : Line} {i : Item} (h : i ∈ l.items) : i.kinds ⊆ l.kinds := by
  intro k hk
  obtain ⟨f, v, hallows, q, a, t⟩ := l
  cases a with
  | none => cases h
  | some a =>
    cases a with
    | empty => cases h
    | items first more =>
      rcases List.mem_cons.1 h with rfl | h
      · simp [kinds, CardList.kinds, hk]
      · simp [kinds, CardList.kinds, subset_moreKinds h hk]

theorem binding_subset_kinds {l : Line} {b : Binding} (h : b ∈ l.bindings) : b.kinds ⊆ l.kinds := by
  intro k hk
  obtain ⟨f, v, hallows, q, a, t⟩ := l
  cases t with
  | none => cases h
  | some t =>
    rcases List.mem_cons.1 h with rfl | h
    · simp [kinds, tailKinds, Tail.pairKinds, hk]
    · simp [kinds, tailKinds, Tail.pairKinds, subset_moreKinds h hk]

end Line

end Grammar

/-- A statement whose texts hold no line feed. -/
structure Statement.OneLine (s : Statement) : Prop where
  subject : '\n' ∉ s.subject.toList
  ids : ∀ text, .id text ∈ s.cards → '\n' ∉ text.toList
  values : ∀ e ∈ s.args.entries, '\n' ∉ e.2.toList

theorem Pair.oneLine_apply {s s' : Statement} {p : Pair} (hs : s.OneLine)
    (hp : '\n' ∉ p.value.toList) (h : p.apply s = .ok s') : s'.OneLine := by
  obtain ⟨-, _, -, -, rfl⟩ | ⟨-, _, -, -, rfl⟩ | ⟨-, _, -, rfl⟩ | ⟨-, _, -, rfl⟩ | ⟨-, -, rfl⟩ :=
    apply_cases h
  · exact ⟨hs.subject, hs.ids, hs.values⟩
  · exact ⟨hs.subject, hs.ids, hs.values⟩
  · exact ⟨hs.subject, hs.ids, hs.values⟩
  · exact ⟨hs.subject, hs.ids, hs.values⟩
  · refine ⟨hs.subject, hs.ids, fun e he => ?_⟩
    rcases mem_insertEntry he with rfl | he
    · exact hp
    · exact hs.values e he

namespace Outline

theorem oneLine_applyPairs {s s' : Statement} {ps : List Pair} (hs : s.OneLine)
    (hps : ∀ p ∈ ps, '\n' ∉ p.value.toList) (h : applyPairs s ps = .ok s') : s'.OneLine := by
  induction ps generalizing s with
  | nil =>
    cases h
    exact hs
  | cons p ps ih =>
    rw [applyPairs] at h
    obtain ⟨t, ht, h⟩ := bind_eq_ok_iff.1 h
    obtain ⟨hp, hps⟩ := List.forall_mem_cons.1 hps
    exact ih (Pair.oneLine_apply hs hp ht) hps h

theorem oneLine_withSubject {o : Outline} {s : Statement} (ho : o.base.OneLine)
    (h : o.withSubject = .ok s) : s.OneLine := by
  unfold withSubject at h
  split at h
  case h_1 | h_2 | h_3 =>
    obtain ⟨_, -, h⟩ := bind_eq_ok_iff.1 h
    cases h
    exact ⟨ho.subject, ho.ids, ho.values⟩
  case h_4 =>
    split at h
    · cases h
    · cases h
      exact ho
  case h_5 =>
    cases h
    exact ho

end Outline

namespace Statement

/-- What a line without line feeds says has none in its texts. -/
theorem oneLine_of_line {l : Line} {s : Statement} (hl : ∀ k ∈ l.kinds, '\n' ∉ k.chars)
    (h : l.statement? = some s) : s.OneLine := by
  obtain ⟨cards, hcards, hbuild⟩ := Option.bind_eq_some_iff.1 h
  obtain ⟨t, ht, hbuild⟩ := bind_eq_ok_iff.1 (toOption_eq_some_iff.1 hbuild)
  have hbase : (l.outline cards).base.OneLine := by
    refine ⟨?_, fun text htext => ?_, nofun⟩
    · simp only [Outline.base, Line.outline]
      cases hsubject : l.subject with
      | none => simp
      | some q =>
        have hq : '\n' ∉ q := hl (.quoted q) (Line.quoted_mem_kinds hsubject)
        simpa using hq
    · obtain ⟨i, hi, hcard⟩ := exists_item_of_read (mapM_card_eq_some_iff.1 hcards) htext
      exact Item.lf_notMem_id (fun k hk => hl k (Line.item_subset_kinds hi hk)) hcard
  refine Outline.oneLine_applyPairs (Outline.oneLine_withSubject hbase ht) ?_ hbuild
  intro p hp
  obtain ⟨b, hb, rfl⟩ := List.mem_map.1 hp
  have hvalue := Binding.lf_notMem_value fun k hk => hl k (Line.binding_subset_kinds hb hk)
  simpa [Binding.toPair] using hvalue

/-- A line without line feeds says a statement without line feeds in its texts. -/
theorem oneLine_of_parse {line : String} {s : Statement} (hline : '\n' ∉ line.toList)
    (h : parse line = .ok (some s)) : s.OneLine := by
  obtain ⟨ts, hts, ht⟩ := tokens_of_parse h
  obtain ⟨l, hkinds, hs⟩ := exists_line_of_ofTokens ht
  refine oneLine_of_line (fun k hk hlf => hline ?_) hs
  exact (Token.spells_of_scan hts).chars_subset k (hkinds ▸ hk) hlf

/-! ## The canonical text is one line -/

/-- A text that is one line once a line feed ends it. -/
structure Tidy (cs : List Char) : Prop where
  lf : '\n' ∉ cs
  cr : cs.getLast? ≠ some '\r'

theorem Tidy.nil : Tidy [] := ⟨nofun, nofun⟩

theorem Tidy.append {a b : List Char} (ha : Tidy a) (hb : Tidy b) : Tidy (a ++ b) := by
  refine ⟨?_, ?_⟩
  · simpa using ⟨ha.lf, hb.lf⟩
  · rw [List.getLast?_append]
    cases h : b.getLast? with
    | none => simpa using ha.cr
    | some c => simpa [h] using hb.cr

theorem Tidy.intercalate {sep : List Char} (hsep : Tidy sep) :
    ∀ {ls : List (List Char)}, (∀ l ∈ ls, Tidy l) → Tidy (sep.intercalate ls)
  | [], _ => Tidy.nil
  | [l], h => by simpa using h l List.mem_cons_self
  | l :: m :: ls, h => by
    obtain ⟨hl, hls⟩ := List.forall_mem_cons.1 h
    rw [List.intercalate_cons_cons]
    exact (hl.append hsep).append (hsep.intercalate hls)

theorem tidy_word {w : List Char} (h : ∀ c ∈ w, Token.isWordChar c = true) : Tidy w := by
  refine ⟨fun hlf => absurd (h '\n' hlf) (by decide), fun hcr => ?_⟩
  exact absurd (h '\r' (List.mem_of_getLast? hcr)) (by decide)

theorem tidy_quote {cs : List Char} (h : '\n' ∉ cs) : Tidy (quote cs) := by
  have hbody : '\n' ∉ cs.flatMap fun c => if c = '"' ∨ c = '\\' then ['\\', c] else [c] := by
    simp only [List.mem_flatMap, not_exists, not_and]
    intro c hc hlf
    have hne : '\n' ≠ c := fun hlf => h (hlf ▸ hc)
    split at hlf <;> simp [hne] at hlf
  refine ⟨by simpa [quote] using hbody, ?_⟩
  rw [quote, ← List.cons_append, List.getLast?_concat]
  decide

theorem tidy_value {value : String} (h : '\n' ∉ value.toList) : Tidy (valueChars value) := by
  unfold valueChars
  split
  · rename_i hplain
    exact tidy_word (isPlain_iff.1 hplain).2
  · exact tidy_quote h

theorem tidy_card {c : CardRef} (h : ∀ text, c = .id text → '\n' ∉ text.toList) :
    Tidy (cardChars c) := by
  cases c with
  | id text =>
    simp only [cardChars]
    split
    · rename_i hplain
      rw [Bool.and_eq_true, isPlain_iff] at hplain
      exact tidy_word (isWordChar_cardToken hplain.1.2)
    · exact tidy_quote (h text rfl)
  | _ => exact tidy_word (isWordChar_cardToken (isWordChar_selector (by simp)))

theorem tidy_pair {e : String × String} (hkey : IsKey e.1) (hvalue : '\n' ∉ e.2.toList) :
    Tidy (pairText e) := by
  have hword : Tidy e.1.toList := tidy_word fun c hc => (hkey.2 c hc).1
  have hcolon : Tidy [':'] := ⟨by decide, by decide⟩
  unfold pairText
  split
  · exact hword
  · exact hword.append (hcolon.append (tidy_value hvalue))

theorem lf_notMem_writtenPairs {s : Statement} (hs : s.OneLine) :
    ∀ e ∈ s.writtenPairs, '\n' ∉ e.2.toList := by
  have word {t : String} (h : ∀ c ∈ t.toList, Token.isWordChar c = true) : '\n' ∉ t.toList :=
    (tidy_word h).lf
  intro e he
  simp only [writtenPairs, List.mem_append, List.mem_map] at he
  rcases he with (((⟨p, -, rfl⟩ | ⟨l, -, rfl⟩) | ⟨a, -, rfl⟩) | ⟨i, -, rfl⟩) | he
  · exact word p.isWordChar_token
  · cases l <;> decide
  · rcases a with ⟨k, m⟩
    cases k <;> cases m <;> decide
  · cases i <;> decide
  · exact hs.values e he

/-- The canonical text of a statement without line feeds in its texts is one line. -/
theorem tidy_canonical {s : Statement} (hwf : s.WellFormed) (hs : s.OneLine) :
    Tidy s.canonical.toList := by
  have hkeyword : Tidy s.keyword.toList := tidy_word (isWordChar_keyword s.family s.verb)
  have hcomma : Tidy ", ".toList := ⟨by decide, by decide⟩
  rw [canonical, String.toList_ofList, canonicalChars]
  refine ((hkeyword.append ?subject).append ?cards).append ?pairs
  case subject =>
    split
    · exact Tidy.nil
    · have hblank : Tidy [' '] := ⟨by decide, by decide⟩
      exact hblank.append (tidy_quote hs.subject)
  case cards =>
    split
    · exact Tidy.nil
    · have hcards : ∀ l ∈ s.cards.map cardChars, Tidy l := by
        intro l hl
        obtain ⟨c, hc, rfl⟩ := List.mem_map.1 hl
        exact tidy_card fun text htext => hs.ids text (htext ▸ hc)
      have hopen : Tidy [' ', '['] := ⟨by decide, by decide⟩
      exact hopen.append ((hcomma.intercalate hcards).append ⟨by decide, by decide⟩)
  case pairs =>
    split
    · exact Tidy.nil
    · have hpairs : ∀ l ∈ s.pairChars, Tidy l := by
        intro l hl
        rw [pairChars_eq] at hl
        obtain ⟨e, he, rfl⟩ := List.mem_map.1 hl
        exact tidy_pair (isKey_writtenPairs hwf e he) (lf_notMem_writtenPairs hs e he)
      have hbar : Tidy " | ".toList := ⟨by decide, by decide⟩
      exact hbar.append (hcomma.intercalate hpairs)

end Statement

/-! ## Programs -/

namespace Program

open Command (showLine countErrors readProgram parseCommand stdinName)

/-- The statements of lines that were read. -/
def statementsOf (ls : List ParsedLine) : List Statement :=
  ls.filterMap fun l => l.result.toOption

/-- The statements of a program. -/
def statements (text : String) : List Statement :=
  statementsOf (parseProgram text)

/-- The canonical text of some statements, each on a line of its own. -/
def canonicalText (ss : List Statement) : String :=
  String.join (ss.map fun s => s.canonical ++ "\n")

/-- Statements on lines that are numbered from `n`. -/
def numbered (n : Nat) (ss : List Statement) : List ParsedLine :=
  ss.mapIdx fun i s => ⟨i + n, .ok s⟩

theorem numbered_cons (n : Nat) (s : Statement) (ss : List Statement) :
    numbered n (s :: ss) = ⟨n, .ok s⟩ :: numbered (n + 1) ss := by
  simp [numbered, List.mapIdx_cons, Nat.add_assoc, Nat.add_comm 1]

theorem statementsOf_numbered (n : Nat) (ss : List Statement) :
    statementsOf (numbered n ss) = ss := by
  induction ss generalizing n with
  | nil => rfl
  | cons s ss ih =>
    rw [numbered_cons]
    exact congrArg (s :: ·) (ih (n + 1))

/-- Every statement of a program stands on one of its lines. -/
theorem exists_line_of_mem {n : Nat} {ls : List String} {s : Statement}
    (h : s ∈ statementsOf (parseLines n ls)) : ∃ l ∈ ls, Statement.parse l = .ok (some s) := by
  induction ls generalizing n with
  | nil => cases h
  | cons l ls ih =>
    have tail (h : s ∈ statementsOf (parseLines (n + 1) ls)) :
        ∃ l' ∈ l :: ls, Statement.parse l' = .ok (some s) := by
      obtain ⟨l', hl', hparse⟩ := ih h
      exact ⟨l', List.mem_cons_of_mem _ hl', hparse⟩
    rw [parseLines] at h
    split at h
    · exact tail h
    · rename_i t ht
      rcases List.mem_cons.1 h with rfl | h
      · exact ⟨l, List.mem_cons_self, ht⟩
      · exact tail h
    · exact tail h

theorem parseLines_canonical {ss : List Statement} (h : ∀ s ∈ ss, s.WellFormed) (n : Nat) :
    parseLines n (ss.map Statement.canonical) = numbered n ss := by
  induction ss generalizing n with
  | nil => rfl
  | cons s ss ih =>
    obtain ⟨hs, hss⟩ := List.forall_mem_cons.1 h
    rw [numbered_cons, List.map_cons, parseLines, Statement.parse_canonical hs, ih hss]

theorem lines_canonicalText {ss : List Statement}
    (h : ∀ s ∈ ss, Statement.Tidy s.canonical.toList) :
    Text.lines (canonicalText ss) = ss.map Statement.canonical := by
  have hchars : (canonicalText ss).toList =
      (ss.map fun s => s.canonical.toList).flatMap (· ++ ['\n']) := by
    simp [canonicalText, String.toList_join, List.flatMap_map]
  have htidy : ∀ l ∈ ss.map fun s => s.canonical.toList, '\n' ∉ l ∧ l.getLast? ≠ some '\r' := by
    intro l hl
    obtain ⟨s, hs, rfl⟩ := List.mem_map.1 hl
    exact ⟨(h s hs).lf, (h s hs).cr⟩
  rw [Text.lines, hchars, Text.splitLines_flatMap htidy, List.map_map]
  exact List.map_congr_left fun s _ => String.ofList_toList

/-- The canonical text of a program reads as its statements, each on the line of its number. -/
theorem parseProgram_canonicalText (text : String) :
    parseProgram (canonicalText (statements text)) = numbered 1 (statements text) := by
  have hread : ∀ s ∈ statements text, s.WellFormed ∧ s.OneLine := by
    intro s hs
    obtain ⟨l, hl, hparse⟩ := exists_line_of_mem hs
    obtain ⟨cs, hcs, rfl⟩ := List.mem_map.1 hl
    have hlf : '\n' ∉ (String.ofList cs).toList := by
      rw [String.toList_ofList]
      exact Text.lf_notMem_splitLines hcs
    exact ⟨Statement.wellFormed_of_parse hparse, Statement.oneLine_of_parse hlf hparse⟩
  rw [parseProgram, lines_canonicalText, parseLines_canonical]
  · exact fun s hs => (hread s hs).1
  · exact fun s hs => Statement.tidy_canonical (hread s hs).1 (hread s hs).2

/-! ## Showing programs -/

theorem canonicalText_cons (s : Statement) (ss : List Statement) :
    canonicalText (s :: ss) = s.canonical ++ "\n" ++ canonicalText ss := by
  simp [canonicalText]

/-- What is printed is the canonical text of the statements. -/
theorem out_foldl_showLine (ls : List ParsedLine) (r : Report) :
    (ls.foldl (showLine true) r).out = r.out ++ canonicalText (statementsOf ls) := by
  induction ls generalizing r with
  | nil => simp [statementsOf, canonicalText]
  | cons l ls ih =>
    rw [List.foldl_cons, ih]
    obtain ⟨n, result⟩ := l
    cases result with
    | ok s =>
      rw [show statementsOf (⟨n, .ok s⟩ :: ls) = s :: statementsOf ls from rfl, canonicalText_cons]
      simp [showLine, Report.print, Command.shownStatement, String.append_assoc]
    | error e => rfl

/-- Lines that all hold statements leave nothing but their canonical text. -/
theorem foldl_showLine_numbered (n : Nat) (ss : List Statement) (r : Report) :
    (numbered n ss).foldl (showLine true) r = { r with out := r.out ++ canonicalText ss } := by
  induction ss generalizing n r with
  | nil => simp [numbered, canonicalText]
  | cons s ss ih =>
    rw [numbered_cons, List.foldl_cons, ih, canonicalText_cons]
    simp [showLine, Report.print, Command.shownStatement, String.append_assoc]

theorem countErrors_numbered (n : Nat) (ss : List Statement) : countErrors (numbered n ss) = 0 := by
  induction ss generalizing n with
  | nil => rfl
  | cons s ss ih =>
    rw [numbered_cons]
    exact ih (n + 1)

/-- What the command shows of a program that comes by the standard input. -/
def shown (w : World) (text : String) : Report :=
  (StateT.run (parseCommand stdinName true : StateM World Report)
    { w with input := Text.encode text }).1

theorem input_run (w : World) :
    StateT.run (Host.input : StateM World Bytes) w = pure (w.input, w) := rfl

theorem readProgram_stdin (w : World) (text : String) :
    StateT.run (readProgram stdinName : StateM World _) { w with input := Text.encode text } =
      pure (.ok text, { w with input := Text.encode text }) := by
  rw [readProgram, if_pos rfl, StateT.run_bind, input_run, pure_bind, Text.decode?_encode]
  rfl

/-- The report of a program: its lines, and a failure if there are errors among them. -/
theorem shown_eq (w : World) (text : String) :
    shown w text = let parsed := parseProgram text
      let report := parsed.foldl (showLine true) .empty
      if countErrors parsed = 0 then report
      else report.fail [Text.numeral (countErrors parsed) ++ " line(s) failed to parse"] := by
  rw [shown, parseCommand, StateT.run_bind, readProgram_stdin, pure_bind]
  dsimp only
  split <;> rfl

theorem out_shown (w : World) (text : String) :
    (shown w text).out = canonicalText (statements text) := by
  have hout := out_foldl_showLine (parseProgram text) .empty
  rw [shown_eq]
  dsimp only
  split <;> simpa [Report.empty, Report.fail, statements] using hout

/-- What the command shows of a program in canonical text has a line for each of its statements,
reads as them, and is shown as it is. -/
theorem canonicalText_faithful (w : World) (text : String) :
    let ss := statements text
    let canonical := canonicalText ss
    (shown w text).out = canonical ∧
      parseProgram canonical = (ss.mapIdx fun i s => ⟨i + 1, .ok s⟩) ∧
      canonicalText (statements canonical) = canonical ∧
      shown w canonical = ⟨canonical, "", []⟩ := by
  intro ss canonical
  have hread : parseProgram canonical = numbered 1 ss := parseProgram_canonicalText text
  have hagain : statements canonical = ss := by rw [statements, hread, statementsOf_numbered]
  refine ⟨out_shown w text, hread, congrArg canonicalText hagain, ?_⟩
  rw [shown_eq, hread]
  simp only [countErrors_numbered, ↓reduceIte, foldl_showLine_numbered, Report.empty,
    String.empty_append]
  rfl

end Program

end RitualGate
