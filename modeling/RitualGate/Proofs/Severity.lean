import RitualGate.Gate
import RitualGate.Proofs.PairEffects

/-!
# More words, a stricter gate

The intent of a subject is that of its gravest word. A space between two texts keeps their words
apart, also from what the end of one text makes of a sigma in the other, so lower-casing and cutting
into words go through it (`lowercase_join`, `words_join`), and the intent of two texts with a space
between them is the stricter of their intents (`classify_join`). The usual policy asks for more the
stricter an intent is (`required_mono`). So a ritual or a companion that is called on with more
words needs every anchor that it needs with fewer (`words_tighten`).
-/

namespace RitualGate

namespace Text

/-! ## A space between two texts -/

/-- What a sigma sees of a text ends at a space. -/
theorem meetsCased_join (a b : List Char) : meetsCased (a ++ ' ' :: b) = meetsCased a := by
  have hspace : isCaseIgnorable ' ' = false ∧ isCased ' ' = false := by decide +kernel
  induction a with
  | nil => simp [meetsCased, hspace]
  | cons c a ih =>
    by_cases hc : isCaseIgnorable c = true
    · simpa only [meetsCased, List.cons_append, List.dropWhile_cons, hc, if_true] using ih
    · simp [meetsCased, hc]

/-- Lower-casing does not look back beyond a space. -/
theorem lowercaseAfter_space (before behind b : List Char) :
    lowercaseAfter (before ++ ' ' :: behind) b = lowercaseAfter before b := by
  induction b generalizing before with
  | nil => rfl
  | cons c b ih =>
    have htail : lowercaseAfter (c :: (before ++ ' ' :: behind)) b =
      lowercaseAfter (c :: before) b := ih (c :: before)
    rw [lowercaseAfter, lowercaseAfter, htail, meetsCased_join]

theorem lowercaseAfter_join (before a b : List Char) :
    lowercaseAfter before (a ++ ' ' :: b) = lowercaseAfter before a ++ ' ' :: lowercase b := by
  induction a generalizing before with
  | nil =>
    have hspace : lowercaseAfter before (' ' :: b) = ' ' :: lowercaseAfter (' ' :: before) b := rfl
    rw [List.nil_append, hspace]
    exact congrArg (' ' :: ·) (lowercaseAfter_space [] before b)
  | cons c a ih =>
    rw [List.cons_append, lowercaseAfter, lowercaseAfter, ih, meetsCased_join, List.append_assoc]

theorem lowercase_join (a b : List Char) :
    lowercase (a ++ ' ' :: b) = lowercase a ++ ' ' :: lowercase b :=
  lowercaseAfter_join [] a b

section Runs

variable {p : Char → Bool} {c d : Char}

theorem runs_skip (hc : p c = false) (cs : List Char) : runs p (c :: cs) = runs p cs := by
  cases cs <;> simp [runs, hc]

theorem runs_ended (hc : p c = true) (hd : p d = false) (cs : List Char) :
    runs p (c :: d :: cs) = [c] :: runs p cs := by
  rw [← runs_skip hd cs, runs.eq_def]
  simp [hc, hd]

theorem runs_longer (hc : p c = true) (hd : p d = true) {cs w : List Char} {ws : List (List Char)}
    (h : runs p (d :: cs) = w :: ws) : runs p (c :: d :: cs) = (c :: w) :: ws := by
  rw [runs.eq_def]
  simp [hc, hd, h]

theorem exists_run (hc : p c = true) (cs : List Char) : ∃ w ws, runs p (c :: cs) = w :: ws := by
  induction cs generalizing c with
  | nil => exact ⟨[c], [], by simp [runs, hc]⟩
  | cons d cs ih =>
    cases hd : p d with
    | false => exact ⟨_, _, runs_ended hc hd cs⟩
    | true =>
      obtain ⟨w, ws, h⟩ := ih hd
      exact ⟨_, _, runs_longer hc hd h⟩

/-- What is no part of a run cuts a text in two. -/
theorem runs_join (hc : p c = false) (a b : List Char) :
    runs p (a ++ c :: b) = runs p a ++ runs p b := by
  induction a with
  | nil => exact runs_skip hc b
  | cons x a ih =>
    cases hx : p x with
    | false => rw [List.cons_append, runs_skip hx, runs_skip hx, ih]
    | true =>
      cases a with
      | nil => simpa [runs, hx] using runs_ended hx hc b
      | cons d a =>
        cases hd : p d with
        | false =>
          rw [List.cons_append, runs_skip hd, runs_skip hd] at ih
          rw [List.cons_append, List.cons_append, runs_ended hx hd, runs_ended hx hd, ih]
          rfl
        | true =>
          obtain ⟨w, ws, h⟩ := exists_run hd a
          rw [h, List.cons_append] at ih
          rw [runs_longer hx hd h, List.cons_append, List.cons_append, runs_longer hx hd ih]
          rfl

end Runs

theorem words_join (a b : List Char) : words (a ++ ' ' :: b) = words a ++ words b :=
  runs_join (by decide +kernel) a b

end Text

/-! ## The gravest word -/

namespace Intent

/-- How strict an intent is. -/
def severity : Intent → Nat
  | general => 0
  | therapeutic => 1
  | healing => 2
  | crisis => 3

/-- The stricter of two intents. -/
def stricter (i j : Intent) : Intent :=
  if i.severity < j.severity then j else i

theorem severity_le_stricter (i j : Intent) :
    i.severity ≤ (i.stricter j).severity ∧ j.severity ≤ (i.stricter j).severity := by
  unfold stricter
  split <;> omega

theorem mentions_append (ws vs : List (List Char)) (vocabulary : List String) :
    mentions (ws ++ vs) vocabulary = (mentions ws vocabulary || mentions vs vocabulary) :=
  List.any_append

theorem ofWords_append (ws vs : List (List Char)) :
    ofWords (ws ++ vs) = (ofWords ws).stricter (ofWords vs) := by
  simp only [ofWords, mentions_append]
  -- which of the three vocabularies either list has a word of decides both sides
  cases mentions ws ["crisis"] <;> cases mentions vs ["crisis"] <;>
    cases mentions ws ["heal", "healing"] <;> cases mentions vs ["heal", "healing"] <;>
    cases mentions ws ["therapy", "therapeutic"] <;>
    cases mentions vs ["therapy", "therapeutic"] <;> rfl

theorem classify_join (a b : String) :
    classify (a ++ " " ++ b) = (classify a).stricter (classify b) := by
  have hchars : (a ++ " " ++ b).toList = a.toList ++ ' ' :: b.toList := by simp
  rw [classify, hchars, Text.lowercase_join, Text.words_join, ofWords_append]
  rfl

end Intent

/-! ## The gate -/

/-- The usual policy asks for more the stricter an intent is. -/
theorem AnchorPolicy.required_mono {i j : Intent} (h : i.severity ≤ j.severity) {a : Anchor}
    (ha : (AnchorPolicy.default.required i).has a = true) :
    (AnchorPolicy.default.required j).has a = true := by
  have hconsent : ∀ k : Intent, 0 < k.severity →
      (AnchorPolicy.default.required k).has ⟨.consent, .explicit⟩ = true := by
    intro k hk
    cases k with
    | general => exact absurd hk (Nat.lt_irrefl 0)
    | _ => rfl
  cases i with
  | general => cases ha
  | crisis =>
    cases j with
    | crisis => exact ha
    | _ => simp [Intent.severity] at h
  | _ =>
    have hname : a = ⟨.consent, .explicit⟩ := List.mem_singleton.1 (List.contains_iff_mem.1 ha)
    rw [hname]
    exact hconsent j (Nat.lt_of_lt_of_le (by decide) h)

namespace Statement

/-- The keys of the pairs of a line. -/
def keysOf (line : String) : Except SyntaxError (List String) := do
  let ts ← Token.scan line
  let o ← Outline.ofTokens ts
  return o.pairs.map Pair.key

/-- `Invokes line s`: the line says `s`, which is a ritual to engage or a companion to summon, and
leaves the intent to the subject. -/
structure Invokes (line : String) (s : Statement) : Prop where
  parsed : parse line = .ok (some s)
  keyword : s.family = .ritual ∧ s.verb = .engage ∨ s.family = .companion ∧ s.verb = .summon
  plain : ∃ keys, keysOf line = .ok keys ∧ "intent" ∉ keys

variable {line : String} {s : Statement}

theorem Invokes.intent (h : Invokes line s) : s.intent = some (Intent.classify s.subject) := by
  obtain ⟨ts, hscan, hs⟩ := tokens_of_parse h.parsed
  obtain ⟨o, houtline, hbuild⟩ := bind_eq_ok_iff.1 hs
  obtain ⟨u, hu, hpairs⟩ := bind_eq_ok_iff.1 hbuild
  obtain ⟨hfamily, hsubject, hintent⟩ := Outline.kept_applyPairs hpairs
  have hnone : (Outline.entriesOf o.pairs).filterMap Outline.namedIntent? = [] := by
    obtain ⟨keys, hkeys, hplain⟩ := h.plain
    have hline : keysOf line = .ok (o.pairs.map Pair.key) :=
      bind_eq_ok_iff.2 ⟨ts, hscan, bind_eq_ok_iff.2 ⟨o, houtline, rfl⟩⟩
    rw [hline, Except.ok.injEq] at hkeys
    refine List.filterMap_eq_nil_iff.2 fun e he => ?_
    obtain ⟨p, hp, rfl⟩ := List.mem_map.1 he
    refine if_neg fun hkey => hplain (hkeys ▸ ?_)
    exact List.mem_map.2 ⟨p, hp, hkey⟩
  have hdefault : s.intent = Intent.default s.family s.subject := by
    rw [hintent, Outline.lastIntent, hnone, Outline.intent_withSubject hu, hfamily, hsubject]
    rfl
  rcases h.keyword with ⟨hf, -⟩ | ⟨hf, -⟩ <;> rw [hdefault, hf] <;> rfl

theorem Invokes.requiredFor_has_iff (h : Invokes line s) (p : AnchorPolicy) (a : Anchor) :
    (p.requiredFor s).has a = true ↔
      (p.required (Intent.classify s.subject)).has a = true ∨ s.anchors.has a = true := by
  have hfamily : s.family ≠ .anchor ∧ s.isDispatch = true := by
    rcases h.keyword with ⟨hf, hv⟩ | ⟨hf, hv⟩ <;> simp [isDispatch, hf, hv]
  rw [AnchorPolicy.requiredFor, if_neg hfamily.1, AnchorPolicy.requiredByIntent, h.intent]
  simp only [hfamily.2, if_true, AnchorSet.union, Bool.or_eq_true]

end Statement

/-- The intent of two texts with a space between them is the stricter of their intents. So a ritual
or a companion that is called on by both, with the intent left to the words, needs all the anchors
under the usual policy that it needs if it is called on by either and declares the same anchors. -/
theorem words_tighten (a b : String) :
    Intent.classify (a ++ " " ++ b) = (Intent.classify a).stricter (Intent.classify b) ∧
      ∀ {line whole : String} {s t : Statement}, Statement.Invokes line s →
        Statement.Invokes whole t → s.subject = a ∨ s.subject = b → t.subject = a ++ " " ++ b →
        s.anchors = t.anchors → ∀ x, (AnchorPolicy.default.requiredFor s).has x = true →
          (AnchorPolicy.default.requiredFor t).has x = true := by
  refine ⟨Intent.classify_join a b, fun hs ht hpart hwhole hanchors x hx => ?_⟩
  rw [hs.requiredFor_has_iff] at hx
  rw [ht.requiredFor_has_iff, hwhole, Intent.classify_join, ← hanchors]
  obtain ⟨hleft, hright⟩ := (Intent.classify a).severity_le_stricter (Intent.classify b)
  refine hx.imp_left fun hx => ?_
  rcases hpart with hpart | hpart
  · exact AnchorPolicy.required_mono hleft (hpart ▸ hx)
  · exact AnchorPolicy.required_mono hright (hpart ▸ hx)

/-- A ritual that is to heal, and a companion for the same words and a crisis; the first text ends
in a capital sigma. -/
theorem words_tighten_crisis :
    let s : Statement :=
      { family := .ritual, verb := .engage, subject := "Healing ΟΔΟΣ", intent := some .healing
        args := .empty, anchors := .ofList [⟨.containment, .explicit⟩], voice := none
        bandwidth := none, cards := [] }
    let t : Statement :=
      { s with family := .companion, verb := .summon, subject := "Healing ΟΔΟΣ Crisis"
               intent := some .crisis }
    Statement.Invokes "ritual.engage \"Healing ΟΔΟΣ\" | anchor:containment" s ∧
      Statement.Invokes "companion.summon \"Healing ΟΔΟΣ Crisis\" | anchor:safe_containment" t ∧
      ∀ x, (AnchorPolicy.default.requiredFor s).has x = true →
        (AnchorPolicy.default.requiredFor t).has x = true := by
  intro s t
  have hs : Statement.Invokes "ritual.engage \"Healing ΟΔΟΣ\" | anchor:containment" s :=
    ⟨by decide +kernel, .inl ⟨rfl, rfl⟩, ["anchor"], by decide +kernel, by decide⟩
  have ht : Statement.Invokes
      "companion.summon \"Healing ΟΔΟΣ Crisis\" | anchor:safe_containment" t :=
    ⟨by decide +kernel, .inr ⟨rfl, rfl⟩, ["anchor"], by decide +kernel, by decide⟩
  exact ⟨hs, ht, (words_tighten "Healing ΟΔΟΣ" "Crisis").2 hs ht (.inl rfl) rfl rfl⟩

end RitualGate
