import RitualGate.Proofs.ArchiveUse
import RitualGate.Proofs.RoundTrip
import RitualGate.Proofs.WellFormed
import RitualGate.Statement.Codec

/-!
# Statements as data

A statement is written as a table of its fields and read back from it. Every field but the card
references comes back as it was (`Statement.ofValue_toValue`). A reference is written as `card:` and
its text, for an id as for a selector, so an id that is spelled like a selector
(`CardRef.SpellsSelector`) comes back as that selector, or not at all if its count is zero. A line
can name such an id in quotes. `json_faithful_iff` says that these ids are the only exception, and
`spelled_selector_misread` shows two of them.
-/

namespace RitualGate

open Data (Value DecodeError)

/-! ## Reading lists and fields back -/

namespace Data

theorem Decode.each_eq_ok_iff {α : Type} {d : Decoder α} {vs : List Value} {as : List α} :
    Decode.each d vs = .ok as ↔ List.Forall₂ (fun v a => d v = .ok a) vs as := by
  induction vs generalizing as with
  | nil =>
    rw [List.forall₂_nil_left_iff, Decode.each, Except.ok.injEq]
    exact eq_comm
  | cons v vs ih =>
    rw [List.forall₂_cons_left_iff, Decode.each]
    constructor
    · intro h
      split at h
      · cases h
      · rename_i a ha
        split at h
        · cases h
        · rename_i as' has
          cases h
          exact ⟨a, as', ha, ih.1 has, rfl⟩
    · rintro ⟨a, as', ha, has, rfl⟩
      simp only [ha, ih.2 has]

/-- A table is read back from its entries if every key and every value is. -/
theorem Decode.entries_map {κ α : Type} {key : Decoder κ} {d : Decoder α} {name : κ → String}
    {f : α → Value} (hkey : ∀ k, key (.text (name k)) = .ok k) (hd : ∀ a, d (f a) = .ok a)
    (es : List (κ × α)) :
    Decode.entries key d (.table (es.map fun e => (name e.1, f e.2))) = .ok es := by
  show Decode.eachEntry key d _ = _
  induction es with
  | nil => rfl
  | cons e es ih => simp only [List.map_cons, Decode.eachEntry, hkey, hd, ih]

theorem Decode.word_text {α : Type} {ofText : String → Except VocabularyError α} {s : String}
    {a : α} : Decode.word ofText (.text s) = .ok a ↔ ofText s = .ok a := by
  simp only [Decode.word, Decode.text]
  cases ofText s <;> simp

/-- A record all of whose fields but the last can be read is read as its last field is. -/
theorem Fields.decode_last {α β : Type} {names : List String} {name : String} {f : Fields (α → β)}
    {g : α → β} {d : Decoder α} {m : Members} {i : Nat} {v w : Value}
    (hm : Members.ofValue names v = .ok m) (hsurplus : m.surplus = false) (hf : f m = .ok g)
    (hlast : Members.find? name m.entries = some (i, w)) :
    Fields.decode names (f.seq (.required name d)) v = (d w).map g := by
  simp only [Fields.decode, hm, Fields.seq, hf, Fields.required, Fields.withDefault, hlast,
    hsurplus]
  cases d w <;> rfl

end Data

theorem Args.ofList_entries (args : Args) : Args.ofList args.entries = args := by
  -- the entries come in order, so each of them goes to the end
  have hfold : ∀ (es : List (String × String)) (done : Args),
      (done.entries ++ es).Pairwise (fun a b => a.1 < b.1) →
      (es.foldl (fun args e => args.insert e.1 e.2) done).entries = done.entries ++ es := by
    intro es
    induction es with
    | nil => simp
    | cons e es ih =>
      intro done hsorted
      have hbefore : ∀ e' ∈ done.entries, e'.1 < e.1 :=
        fun e' he' => (List.pairwise_append.1 hsorted).2.2 e' he' e List.mem_cons_self
      have hlast : (done.insert e.1 e.2).entries = done.entries ++ [e] := insertEntry_last hbefore
      rw [List.foldl_cons, ih _ (by simpa [hlast] using hsorted), hlast]
      simp
  have hentries : (Args.ofList args.entries).entries = args.entries :=
    hfold args.entries .empty args.sorted
  generalize Args.ofList args.entries = read at hentries
  cases read
  cases args
  simpa using hentries

theorem Args.ofValue_toValue (args : Args) : Args.ofValue args.toValue = .ok args := by
  have htext (t : String) : Data.Decode.text (.text t) = .ok t := rfl
  have hentries : Data.Decode.entries Data.Decode.text Data.Decode.text args.toValue =
      .ok args.entries := Data.Decode.entries_map htext htext args.entries
  rw [Args.ofValue, hentries]
  exact congrArg Except.ok args.ofList_entries

theorem AnchorSet.ofList_toList (s : AnchorSet) : AnchorSet.ofList s.toList = s := by
  ext a
  rw [AnchorSet.ofList, Bool.eq_iff_iff, List.contains_iff_mem, AnchorSet.mem_toList]

theorem AnchorSet.ofValue_toValue (s : AnchorSet) : AnchorSet.ofValue s.toValue = .ok s := by
  have hlist : Data.Decode.list Anchor.ofValue s.toValue = .ok s.toList := by
    rw [AnchorSet.toValue, Value.texts, List.map_map]
    exact Data.Decode.list_map fun a _ => Data.Decode.word_text.2 a.ofText_text
  rw [AnchorSet.ofValue, hlist]
  exact congrArg Except.ok s.ofList_toList

/-! ## Card references -/

namespace CardRef

/-- A text is spelled like a selector, with a count or none. -/
inductive SpellsSelector : String → Prop
  | latest {ds : List Char} {n : Nat} (h : Text.readNumeral? Text.wordMax ds = some n) :
    SpellsSelector ("latest-" ++ String.ofList ds)
  | topicRelevant : SpellsSelector "topic-relevant"
  | topRelevant {ds : List Char} {k : Nat} (h : Text.readNumeral? Text.wordMax ds = some k) :
    SpellsSelector ("top-" ++ String.ofList ds ++ "-relevant")

theorem latestCount?_eq_some_iff {word : String} {n : Nat} :
    latestCount? word.toList = some n ↔
      ∃ ds, word = "latest-" ++ String.ofList ds ∧ Text.readNumeral? Text.wordMax ds = some n := by
  simp only [latestCount?, Option.bind_eq_bind, Option.bind_eq_some_iff,
    Text.stripHead?_eq_some_iff, ← String.toList_inj, String.toList_append, String.toList_ofList]

theorem topCount?_eq_some_iff {word : String} {k : Nat} :
    topCount? word.toList = some k ↔ ∃ ds, word = "top-" ++ String.ofList ds ++ "-relevant" ∧
      Text.readNumeral? Text.wordMax ds = some k := by
  simp only [topCount?, Option.bind_eq_bind, Option.bind_eq_some_iff, Text.stripHead?_eq_some_iff,
    Text.stripTail?_eq_some_iff, ← String.toList_inj, String.toList_append, String.toList_ofList]
  constructor
  · rintro ⟨ds, ⟨_, hword, rfl⟩, hread⟩
    exact ⟨ds, by rw [hword, List.append_assoc], hread⟩
  · rintro ⟨ds, hword, hread⟩
    exact ⟨ds, ⟨_, by rw [hword, List.append_assoc], rfl⟩, hread⟩

theorem spellsSelector_iff {word : String} : SpellsSelector word ↔
    word = "topic-relevant" ∨ (latestCount? word.toList).isSome = true ∨
      (topCount? word.toList).isSome = true := by
  simp only [Option.isSome_iff_exists, latestCount?_eq_some_iff, topCount?_eq_some_iff]
  constructor
  · rintro (⟨h⟩ | _ | ⟨h⟩)
    · exact .inr (.inl ⟨_, _, rfl, h⟩)
    · exact .inl rfl
    · exact .inr (.inr ⟨_, _, rfl, h⟩)
  · rintro (rfl | ⟨n, ds, rfl, h⟩ | ⟨k, ds, rfl, h⟩)
    · exact .topicRelevant
    · exact .latest h
    · exact .topRelevant h

instance (word : String) : Decidable (SpellsSelector word) :=
  decidable_of_iff _ spellsSelector_iff.symm

/-- A word that is not empty is an id unless it is spelled like a selector. -/
theorem ofUnmarked_eq_id_iff {word : String} (hne : word ≠ "") :
    ofUnmarked word = .ok (.id word) ↔ ¬ SpellsSelector word := by
  rw [spellsSelector_iff, ofUnmarked, if_neg hne]
  by_cases htopic : word = "topic-relevant"
  · simp [htopic]
  · rw [if_neg htopic]
    cases latestCount? word.toList with
    | some n => cases n <;> simp
    | none =>
      cases topCount? word.toList with
      | some k => cases k <;> simp
      | none => simp [htopic]

/-- A reference is read back from what is written for it, unless it is an id that is spelled like a
selector. -/
theorem ofWord_token_iff {c : CardRef} (h : c.InRange) :
    ofWord c.token = .ok c ↔ ∀ text, c = .id text → ¬ SpellsSelector text := by
  rw [ofWord_token]
  cases c with
  | id text =>
    rw [show (id text).text = text from rfl, ofUnmarked_eq_id_iff h]
    exact ⟨fun hid t ht => CardRef.id.inj ht ▸ hid, fun hall => hall text rfl⟩
  | latest n => exact ⟨fun _ => nofun, fun _ => ofUnmarked_latest h⟩
  | topicRelevant => exact ⟨fun _ => nofun, fun _ => rfl⟩
  | topRelevant k => exact ⟨fun _ => nofun, fun _ => ofUnmarked_topRelevant h⟩

/-- References are read from a list of their texts one by one. -/
theorem list_ofValue_iff {cs ds : List CardRef} :
    Data.Decode.list ofValue (.texts (cs.map token)) = .ok ds ↔
      List.Forall₂ (fun c d => ofWord c.token = .ok d) cs ds := by
  show Data.Decode.each ofValue ((cs.map token).map .text) = .ok ds ↔ _
  rw [Data.Decode.each_eq_ok_iff, List.forall₂_map_left_iff, List.forall₂_map_left_iff]
  simp only [ofValue, Data.Decode.word_text]

end CardRef

/-! ## Statements -/

namespace Statement

open Data.Fields in
/-- A statement is read from its data as it was, with the references that are read from theirs. -/
theorem ofValue_toValue (s : Statement) : ofValue s.toValue =
    (Data.Decode.list CardRef.ofValue (.texts (s.cards.map CardRef.token))).map
      fun cs => { s with cards := cs } := by
  obtain ⟨family, verb, subject, intent, args, anchors, voice, level, cards⟩ := s
  have hfamily : Data.Decode.variant Family.ofName? (.text family.name) = .ok family :=
    Data.Decode.variant_text family.ofName?_name
  have hverb : Data.Decode.variant Verb.ofName? (.text verb.name) = .ok verb :=
    Data.Decode.variant_text verb.ofName?_name
  have hintent : Data.Decode.option Intent.ofValue (.option (fun i => .text i.name) intent) =
      .ok intent := by
    cases intent with
    | none => rfl
    | some i => cases i <;> rfl
  have hvoice : Data.Decode.option Persona.ofValue (.option (fun p => .text p.token) voice) =
      .ok voice := by
    cases voice with
    | none => rfl
    | some p => exact Data.Decode.option_text (Data.Decode.word_text.2 p.ofText_token)
  have hlevel : Data.Decode.option Level.ofValue (.option (fun l => .text l.name) level) =
      .ok level := by
    cases level with
    | none => rfl
    | some l => cases l <;> rfl
  refine decode_last (g := Statement.mk family verb subject intent args anchors voice level)
    rfl rfl ?_ rfl
  refine seq_eq_ok ?_ (withDefault_eq_ok rfl hlevel)
  refine seq_eq_ok ?_ (withDefault_eq_ok rfl hvoice)
  refine seq_eq_ok ?_ (withDefault_eq_ok rfl anchors.ofValue_toValue)
  refine seq_eq_ok ?_ (withDefault_eq_ok rfl args.ofValue_toValue)
  refine seq_eq_ok ?_ (withDefault_eq_ok rfl hintent)
  refine seq_eq_ok ?_ (withDefault_eq_ok rfl rfl)
  refine seq_eq_ok ?_ (withDefault_eq_ok rfl hverb)
  exact seq_eq_ok rfl (withDefault_eq_ok rfl hfamily)

theorem ofValue_eq_ok_iff {s s' : Statement} : ofValue s.toValue = .ok s' ↔
    s' = { s with cards := s'.cards } ∧
      List.Forall₂ (fun c d => CardRef.ofWord c.token = .ok d) s.cards s'.cards := by
  rw [ofValue_toValue, ← CardRef.list_ofValue_iff]
  cases Data.Decode.list CardRef.ofValue (.texts (s.cards.map CardRef.token)) with
  | error e => simp [Except.map]
  | ok cs =>
    simp only [Except.map, Except.ok.injEq]
    constructor
    · rintro rfl
      exact ⟨rfl, rfl⟩
    · rintro ⟨hs, hcards⟩
      rw [hs, hcards]

theorem writable_toValue (s : Statement) : s.toValue.Writable := by
  simp [toValue, Args.toValue, AnchorSet.toValue, Value.writable_option, Value.writable_table_map]

/-- The statement that is read from the JSON form of a statement. -/
def throughJson (s : Statement) : Option (Except DecodeError Statement) :=
  (Data.Json.parse? (Data.Json.compact s.toValue)).map ofValue

theorem throughJson_eq (s : Statement) : s.throughJson = some (ofValue s.toValue) := by
  rw [throughJson, Data.Json.parse?_compact s.writable_toValue, Option.map_some]

/-- A statement that was read from a line is read back from its JSON form exactly if none of its
ids is spelled like a selector, and its references one by one likewise. Nothing but references is
ever read otherwise than it was. -/
theorem json_faithful_iff {line : String} {s : Statement} (h : parse line = .ok (some s)) :
    (s.throughJson = some (.ok s) ↔
        ∀ text, .id text ∈ s.cards → ¬ CardRef.SpellsSelector text) ∧
      (∀ c ∈ s.cards, CardRef.ofWord c.token = .ok c ↔
        ∀ text, c = .id text → ¬ CardRef.SpellsSelector text) ∧
      ∀ s', s.throughJson = some (.ok s') → s' = { s with cards := s'.cards } := by
  have hcard : ∀ c ∈ s.cards, CardRef.ofWord c.token = .ok c ↔
      ∀ text, c = .id text → ¬ CardRef.SpellsSelector text :=
    fun c hc => CardRef.ofWord_token_iff ((wellFormed_of_parse h).cards c hc)
  refine ⟨?_, hcard, fun s' hs' => ?_⟩
  · rw [throughJson_eq, Option.some.injEq, ofValue_eq_ok_iff, List.forall₂_same]
    constructor
    · rintro ⟨-, hall⟩ text htext
      exact (hcard _ htext).1 (hall _ htext) text rfl
    · intro hall
      refine ⟨rfl, fun c hc => (hcard c hc).2 ?_⟩
      rintro text rfl
      exact hall text hc
  · rw [throughJson_eq, Option.some.injEq, ofValue_eq_ok_iff] at hs'
    exact hs'.1

/-- A selector, and ids that are almost spelled like one. -/
theorem json_faithful_iff_almost :
    let s : Statement :=
      { family := .archive, verb := .access, subject := "", intent := none, args := .empty
        anchors := .empty, voice := none, bandwidth := none
        cards := [.latest 2, .id "latest-x", .id "card:latest-2", .id "top-3"] }
    parse "archive.access [latest-2, \"latest-x\", \"card:latest-2\", top-3]" = .ok (some s) ∧
      s.throughJson = some (.ok s) := by
  intro s
  have hparse : parse "archive.access [latest-2, \"latest-x\", \"card:latest-2\", top-3]" =
    .ok (some s) := by decide +kernel
  have hids : ∀ text ∈ ["latest-x", "card:latest-2", "top-3"], ¬ CardRef.SpellsSelector text := by
    decide +kernel
  refine ⟨hparse, (json_faithful_iff hparse).1.2 fun text htext => hids text ?_⟩
  simpa [s] using htext

/-- A quoted id that is spelled like a selector comes back as the selector, and with a count of zero
it is refused. -/
theorem spelled_selector_misread :
    let s (text : String) : Statement :=
      { family := .archive, verb := .access, subject := "", intent := none, args := .empty
        anchors := .empty, voice := none, bandwidth := none, cards := [.id text] }
    parse "archive.access [\"latest-9\"]" = .ok (some (s "latest-9")) ∧
      (s "latest-9").throughJson = some (.ok { s "latest-9" with cards := [.latest 9] }) ∧
      parse "archive.access [\"latest-0\"]" = .ok (some (s "latest-0")) ∧
      (s "latest-0").throughJson = some (.error (.word (.zeroBound "latest-0"))) := by
  simp only [throughJson_eq]
  decide +kernel

end Statement

end RitualGate
