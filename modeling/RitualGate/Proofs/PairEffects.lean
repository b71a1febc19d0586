import Mathlib.Data.List.Perm.Basic
import RitualGate.Proofs.Derivation

/-!
# What pairs do to a statement

A pair says one of five things once its value is read (`Effect`), and each of them changes one part
of a statement or refuses to. But for the intent, which a later pair takes from an earlier one, what
two pairs do does not depend on which of them comes first (`blindAct_comm`), so pairs in another
order make the same statement up to its intent (`blind_applyPairs_perm`). The intent is that of the
last pair that names one (`kept_applyPairs`). `build_reordered` puts the two together for a line.
-/

namespace RitualGate

/-! ## Arguments -/

theorem lookup_cons_eq (k : String) (e : String × String) (l : List (String × String)) :
    (e :: l).lookup k = if k = e.1 then some e.2 else l.lookup k := by
  obtain ⟨key, value⟩ := e
  by_cases h : k = key
  · simp [h]
  · simp [List.lookup_cons, h, beq_false_of_ne h]

theorem lookup_insertEntry (key value k : String) (l : List (String × String)) :
    (insertEntry key value l).lookup k = if k = key then some value else l.lookup k := by
  induction l with
  | nil => rw [insertEntry, lookup_cons_eq]
  | cons e l ih =>
    rw [insertEntry]
    split
    · rw [lookup_cons_eq]
    · split
      · rename_i heq
        rw [lookup_cons_eq, lookup_cons_eq k e, ← heq]
        split <;> rfl
      · rename_i hne
        rw [lookup_cons_eq, ih, lookup_cons_eq k e]
        by_cases hk : k = e.1
        · rw [if_pos hk, if_pos hk, if_neg fun h => hne (h.symm.trans hk)]
        · rw [if_neg hk, if_neg hk]

theorem Args.contains_insert (args : Args) (key value k : String) :
    (args.insert key value).contains k = (decide (k = key) || args.contains k) := by
  rw [contains, get?, insert, lookup_insertEntry]
  by_cases h : k = key <;> simp [h, contains, get?]

/-- Two arguments may be set in either order. -/
theorem insertEntry_comm {k k' : String} (h : k ≠ k') (v v' : String)
    (l : List (String × String)) :
    insertEntry k v (insertEntry k' v' l) = insertEntry k' v' (insertEntry k v l) := by
  induction l with
  | nil => grind [insertEntry]
  | cons e l ih => grind [insertEntry]

theorem Args.insert_comm (args : Args) {k k' : String} (h : k ≠ k') (v v' : String) :
    (args.insert k v).insert k' v' = (args.insert k' v').insert k v := by
  simp only [insert, insertEntry_comm h]

theorem AnchorSet.insert_comm (s : AnchorSet) (a b : Anchor) :
    (s.insert a).insert b = (s.insert b).insert a := by
  ext c
  simp only [insert, Bool.or_left_comm]

/-! ## Effects -/

/-- What a pair says once its value is read. -/
inductive Effect where
  | voice (p : Persona)
  | level (l : Level)
  | anchor (a : Anchor)
  | intent (i : Intent)
  | argument (key value : String)

namespace Effect

/-- What a key and a value say. -/
def ofEntry? (e : String × String) : Option Effect :=
  if e.1 = "voice" then (Persona.ofText e.2).toOption.map voice
  else if e.1 = "bandwidth" then (Level.ofText e.2).toOption.map level
  else if e.1 = "anchor" then (Anchor.ofText e.2).toOption.map anchor
  else if e.1 = "intent" then (Intent.ofText e.2).toOption.map intent
  else some (argument e.1 e.2)

/-- Whether a statement already says something else: another voice or level, or the same
argument. -/
def clashes (s : Statement) : Effect → Bool
  | voice p => s.voice.any (· != p)
  | level l => s.bandwidth.any (· != l)
  | argument k _ => s.args.contains k
  | _ => false

/-- A statement that says something more. -/
def update (s : Statement) : Effect → Statement
  | voice p => { s with voice := some p }
  | level l => { s with bandwidth := some l }
  | anchor a => { s with anchors := s.anchors.insert a }
  | intent i => { s with intent := some i }
  | argument k v => { s with args := s.args.insert k v }

/-- What an effect makes of a statement. -/
def act (s : Statement) (e : Effect) : Option Statement :=
  if e.clashes s then none else some (e.update s)

/-- Whether two effects cannot be had together. -/
def opposes : Effect → Effect → Bool
  | voice p, voice q => p != q
  | level l, level l' => l != l'
  | argument k _, argument k' _ => k == k'
  | _, _ => false

theorem opposes_comm (a b : Effect) : a.opposes b = b.opposes a := by
  cases a <;> cases b <;> simp [opposes, bne, Bool.beq_comm]

/-- What clashes with a statement that says something more clashes with the statement or with what
was added. -/
theorem clashes_update {s : Statement} {a : Effect} (h : a.clashes s = false) (b : Effect) :
    b.clashes (a.update s) = (b.clashes s || a.opposes b) := by
  -- of one voice or level, the statement can only say the one that was added
  have same {α : Type} [DecidableEq α] {o : Option α} {a : α} (b : α)
      (h : o.any (· != a) = false) : (some a).any (· != b) = (o.any (· != b) || a != b) := by
    cases o with
    | none => rfl
    | some c =>
      obtain rfl : c = a := by simpa using h
      simp
  cases a <;> cases b <;> simp only [clashes, update, opposes, Bool.or_false]
  case voice.voice p q => exact same q h
  case level.level l l' => exact same l' h
  case argument.argument k v k' v' =>
    rw [Args.contains_insert, Bool.or_comm]
    simp [eq_comm, beq_eq_decide]

end Effect

/-- A pair does what it says. -/
theorem Pair.apply_eq_act (p : Pair) (s : Statement) :
    (p.apply s).toOption = (Effect.ofEntry? (p.key, p.value)).bind (Effect.act s) := by
  have guard (clash : Bool) (e : SyntaxError) (t : Statement) :
      (if clash then .error e else .ok t : Except SyntaxError Statement).toOption =
        if clash then none else some t := by
    cases clash <;> rfl
  have read {α : Type} {ofText : String → Except VocabularyError α} {effect : α → Effect}
      {f : α → Except SyntaxError Statement} (hf : ∀ a, (f a).toOption = (effect a).act s) :
      (p.valueAs ofText >>= f).toOption =
        ((ofText p.value).toOption.map effect).bind (Effect.act s) := by
    rw [toOption_bind, valueAs]
    cases ofText p.value with
    | error e => rfl
    | ok a => exact hf a
  unfold apply Effect.ofEntry?
  split
  · exact read fun _ => guard _ _ _
  · split
    · exact read fun _ => guard _ _ _
    · split
      · exact read fun _ => rfl
      · split
        · exact read fun _ => rfl
        · exact guard _ _ _

/-! ## The order of effects -/

namespace Statement

/-- A statement of which the intent is left open. -/
def blind (s : Statement) : Statement := { s with intent := none }

/-- Effects that can be had together may come in either order, but for the intent. -/
theorem blind_update_comm (s : Statement) {a b : Effect} (h : a.opposes b = false) :
    (b.update (a.update s)).blind = (a.update (b.update s)).blind := by
  cases a <;> cases b <;> simp only [Effect.update, blind]
  case voice.voice p q => simp_all [Effect.opposes]
  case level.level l l' => simp_all [Effect.opposes]
  case anchor.anchor a b => rw [AnchorSet.insert_comm]
  case argument.argument k v k' v' =>
    have hne : k ≠ k' := by simpa [Effect.opposes] using h
    rw [Args.insert_comm _ hne]

theorem clashes_blind (s : Statement) (e : Effect) : e.clashes s.blind = e.clashes s := by
  cases e <;> rfl

theorem blind_update_blind (s : Statement) (e : Effect) :
    (e.update s.blind).blind = (e.update s).blind := by
  cases e <;> rfl

/-- What an effect makes of a statement, the intent left open. -/
def blindAct (s : Statement) (e : Effect) : Option Statement :=
  (e.act s).map blind

theorem blindAct_blind (s : Statement) (e : Effect) : s.blind.blindAct e = s.blindAct e := by
  rw [blindAct, Effect.act, clashes_blind, blindAct, Effect.act]
  cases e.clashes s with
  | true => rfl
  | false => exact congrArg some (blind_update_blind s e)

theorem blindAct_bind (s : Statement) (a b : Effect) : (s.blindAct a).bind (blindAct · b) =
    if a.clashes s || b.clashes s || a.opposes b then none
    else some (b.update (a.update s)).blind := by
  cases ha : a.clashes s with
  | true => simp [blindAct, Effect.act, ha]
  | false =>
    have hact : s.blindAct a = some (a.update s).blind := by simp [blindAct, Effect.act, ha]
    rw [hact, Option.bind_some, blindAct_blind, blindAct, Effect.act, Effect.clashes_update ha]
    cases b.clashes s <;> cases a.opposes b <;> rfl

/-- But for the intent, two effects do the same in either order. -/
theorem blindAct_comm (s : Statement) (a b : Effect) :
    (s.blindAct a).bind (blindAct · b) = (s.blindAct b).bind (blindAct · a) := by
  rw [blindAct_bind, blindAct_bind, Bool.or_comm (a.clashes s), a.opposes_comm]
  cases h : b.opposes a with
  | true => simp
  | false => rw [blind_update_comm s h]

/-- What a key and a value make of a statement, the intent left open. -/
def blindStep (o : Option Statement) (e : String × String) : Option Statement :=
  o.bind fun s => (Effect.ofEntry? e).bind s.blindAct

instance : RightCommutative blindStep where
  right_comm o a b := by
    cases o with
    | none => rfl
    | some s =>
      cases ha : Effect.ofEntry? a with
      | none => cases hb : Effect.ofEntry? b <;> simp [blindStep, ha, hb]
      | some a =>
        cases hb : Effect.ofEntry? b with
        | none => simp [blindStep, ha, hb]
        | some b => simpa [blindStep, ha, hb] using blindAct_comm s a b

end Statement

namespace Outline

open Statement (blind blindStep blindAct)

/-- Pairs applied one after the other, the intent left open. -/
theorem blind_applyPairs (s : Statement) (ps : List Pair) :
    (applyPairs s ps).toOption.map blind = (entriesOf ps).foldl blindStep (some s.blind) := by
  induction ps generalizing s with
  | nil => rfl
  | cons p ps ih =>
    have hnone (es : List (String × String)) : es.foldl blindStep none = none := by
      induction es with
      | nil => rfl
      | cons e es ih => exact ih
    have hstep : blindStep (some s.blind) (p.key, p.value) = (p.apply s).toOption.map blind := by
      rw [Pair.apply_eq_act, blindStep, Option.bind_some]
      cases Effect.ofEntry? (p.key, p.value) with
      | none => rfl
      | some e => exact Statement.blindAct_blind s e
    rw [applyPairs, toOption_bind, entriesOf, List.map_cons, List.foldl_cons, hstep]
    cases (p.apply s).toOption with
    | none => exact (hnone _).symm
    | some t => exact ih t

/-- Pairs in another order make the same statement, the intent left open. -/
theorem blind_applyPairs_perm {ps qs : List Pair} (h : (entriesOf ps).Perm (entriesOf qs))
    (s : Statement) :
    (applyPairs s ps).toOption.map blind = (applyPairs s qs).toOption.map blind := by
  rw [blind_applyPairs, blind_applyPairs]
  exact h.foldl_eq _

/-! ## The intent -/

/-- The intent that a key and a value name. -/
def namedIntent? (e : String × String) : Option Intent :=
  if e.1 = "intent" then (Intent.ofText e.2).toOption else none

/-- The intent that some keys and values leave a statement with: the last that they name, or the one
that it had. -/
def lastIntent (es : List (String × String)) (before : Option Intent) : Option Intent :=
  (es.filterMap namedIntent?).getLast?.or before

theorem lastIntent_cons (e : String × String) (es : List (String × String))
    (before : Option Intent) :
    lastIntent (e :: es) before = lastIntent es ((namedIntent? e).or before) := by
  unfold lastIntent
  cases h : namedIntent? e with
  | none => simp [h]
  | some i =>
    rw [List.filterMap_cons_some h, List.getLast?_cons]
    cases (es.filterMap namedIntent?).getLast? <;> rfl

theorem kept_apply {s t : Statement} {p : Pair} (h : p.apply s = .ok t) :
    t.family = s.family ∧ t.subject = s.subject ∧
      t.intent = (namedIntent? (p.key, p.value)).or s.intent := by
  rcases Pair.apply_cases h with ⟨hk, -, -, -, rfl⟩ | ⟨hk, -, -, -, rfl⟩ | ⟨hk, -, -, rfl⟩ |
    ⟨hk, i, hi, rfl⟩ | ⟨hk, -, rfl⟩
  · simp [namedIntent?, hk]
  · simp [namedIntent?, hk]
  · simp [namedIntent?, hk]
  · simp [namedIntent?, hk, hi, Except.toOption]
  · have hne : p.key ≠ "intent" := fun e => hk (by simp [reservedKeys, e])
    simp [namedIntent?, hne]

theorem kept_applyPairs {s t : Statement} {ps : List Pair} (h : applyPairs s ps = .ok t) :
    t.family = s.family ∧ t.subject = s.subject ∧
      t.intent = lastIntent (entriesOf ps) s.intent := by
  induction ps generalizing s with
  | nil =>
    cases h
    exact ⟨rfl, rfl, rfl⟩
  | cons p ps ih =>
    rw [applyPairs] at h
    obtain ⟨u, hu, h⟩ := bind_eq_ok_iff.1 h
    obtain ⟨hfamily, hsubject, hintent⟩ := ih h
    obtain ⟨hfamily', hsubject', hintent'⟩ := kept_apply hu
    refine ⟨hfamily.trans hfamily', hsubject.trans hsubject', ?_⟩
    rw [hintent, hintent']
    exact (lastIntent_cons _ _ _).symm

theorem intent_withSubject {o : Outline} {s : Statement} (h : o.withSubject = .ok s) :
    s.intent = Intent.default s.family s.subject := by
  unfold withSubject at h
  split at h
  case h_4 =>
    split at h
    · cases h
    · cases h
      rfl
  case h_5 =>
    cases h
    rfl
  all_goals
    obtain ⟨a, -, h⟩ := bind_eq_ok_iff.1 h
    cases h
    rfl

/-- A line with its pairs in another order says the same, but that the last intent counts. -/
theorem build_reordered {o : Outline} {ps : List Pair}
    (hperm : (entriesOf o.pairs).Perm (entriesOf ps)) {s : Statement} (h : o.build = .ok s) :
    { o with pairs := ps }.build =
      .ok { s with intent := lastIntent (entriesOf ps) (Intent.default s.family s.subject) } := by
  rw [build] at h
  obtain ⟨t, ht, h⟩ := bind_eq_ok_iff.1 h
  have hblind : (applyPairs t ps).toOption.map blind = some s.blind := by
    rw [← blind_applyPairs_perm hperm, h]
    rfl
  obtain ⟨s', hs', hsame⟩ := Option.map_eq_some_iff.1 hblind
  rw [toOption_eq_some_iff] at hs'
  obtain ⟨hfamily, hsubject, -⟩ := kept_applyPairs h
  have hintent : s'.intent = lastIntent (entriesOf ps) (Intent.default s.family s.subject) := by
    rw [(kept_applyPairs hs').2.2, intent_withSubject ht, hfamily, hsubject]
  have hresult : s' = { s with intent := s'.intent } :=
    congrArg (fun u : Statement => { u with intent := s'.intent }) hsame
  rw [← hintent, ← hresult]
  exact bind_eq_ok_iff.2 ⟨t, ht, hs'⟩

end Outline

end RitualGate
