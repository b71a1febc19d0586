import Mathlib.Data.List.Basic
import RitualGate.Archive.Store

/-!
# Ranking by relevance

`Ranks` says what it is for a list to rank some cards for a topic: it has the cards that are
relevant, each as often as it was there, the more relevant before the less, and cards that are
equally relevant in the order in which they were. There is one such list only (`Ranks.unique`), it
is what `rank` gives, and a ranking is its own ranking. Both archives answer for the most relevant
cards with the beginning of what they answer for the topic (`ranking_exact`).
-/

namespace RitualGate

/-- The cards that are relevant to a topic. -/
def relevantTo (topic : String) (cards : List Card) : List Card :=
  cards.filter fun c => decide (0 < c.relevance topic)

/-- The cards of one score. -/
def scoring (topic : String) (score : Nat) (cards : List Card) : List Card :=
  cards.filter fun c => decide (c.relevance topic = score)

/-- `Ranks topic cards ranked`: the list `ranked` is a ranking of `cards` for a topic. -/
structure Ranks (topic : String) (cards ranked : List Card) : Prop where
  perm : ranked.Perm (relevantTo topic cards)
  descending : ranked.Pairwise fun a b => b.relevance topic ≤ a.relevance topic
  stable : ∀ score, 0 < score → scoring topic score ranked = scoring topic score cards

variable {topic : String} {cards ranked ranked' : List Card}

theorem mem_relevantTo {c : Card} : c ∈ relevantTo topic cards ↔
    c ∈ cards ∧ 0 < c.relevance topic := by
  rw [relevantTo, List.mem_filter, decide_eq_true_eq]

theorem mem_scoring {c : Card} {score : Nat} : c ∈ scoring topic score cards ↔
    c ∈ cards ∧ c.relevance topic = score := by
  rw [scoring, List.mem_filter, decide_eq_true_eq]

theorem scoring_relevantTo {score : Nat} (h : 0 < score) (cards : List Card) :
    scoring topic score (relevantTo topic cards) = scoring topic score cards := by
  rw [scoring, relevantTo, List.filter_filter]
  refine List.filter_congr fun c _ => ?_
  rw [← Bool.decide_and, decide_eq_decide]
  omega

theorem scoring_scoring (score : Nat) (cards : List Card) :
    scoring topic score (scoring topic score cards) = scoring topic score cards :=
  List.filter_eq_self.2 fun _ hc => decide_eq_true (mem_scoring.1 hc).2

theorem Ranks.relevant (h : Ranks topic cards ranked) {c : Card} (hc : c ∈ ranked) :
    0 < c.relevance topic :=
  (mem_relevantTo.1 (h.perm.subset hc)).2

/-! ## There is one ranking -/

theorem mem_of_scoring (h : ∀ score, scoring topic score ranked = scoring topic score ranked')
    {c : Card} (hc : c ∈ ranked) : c ∈ ranked' := by
  have hscore : c ∈ scoring topic (c.relevance topic) ranked := mem_scoring.2 ⟨hc, rfl⟩
  rw [h] at hscore
  exact (mem_scoring.1 hscore).1

/-- Two lists in descending order are one if they have the same cards of every score. -/
theorem eq_of_scoring (hd : ranked.Pairwise fun a b => b.relevance topic ≤ a.relevance topic)
    (hd' : ranked'.Pairwise fun a b => b.relevance topic ≤ a.relevance topic)
    (h : ∀ score, scoring topic score ranked = scoring topic score ranked') : ranked = ranked' := by
  induction ranked generalizing ranked' with
  | nil =>
    refine (List.eq_nil_iff_forall_not_mem.2 fun c hc => ?_).symm
    exact List.not_mem_nil (mem_of_scoring (fun score => (h score).symm) hc)
  | cons a as ih =>
    cases ranked' with
    | nil => exact absurd (mem_of_scoring h List.mem_cons_self) List.not_mem_nil
    | cons b bs =>
      rw [List.pairwise_cons] at hd hd'
      -- either list begins with a card of the highest score
      have hle : b.relevance topic ≤ a.relevance topic := by
        rcases List.mem_cons.1 (mem_of_scoring (fun score => (h score).symm)
          (List.mem_cons_self (a := b))) with rfl | hb
        · exact Nat.le_refl _
        · exact hd.1 b hb
      have hge : a.relevance topic ≤ b.relevance topic := by
        rcases List.mem_cons.1 (mem_of_scoring h List.mem_cons_self) with rfl | ha
        · exact Nat.le_refl _
        · exact hd'.1 a ha
      have hhead := h (a.relevance topic)
      simp only [scoring, List.filter_cons, Nat.le_antisymm hle hge, decide_true, if_true] at hhead
      obtain ⟨rfl, -⟩ := List.cons.inj hhead
      have htail : ∀ score, scoring topic score as = scoring topic score bs := by
        intro score
        have hall := h score
        simp only [scoring, List.filter_cons] at hall
        split at hall
        · exact (List.cons.inj hall).2
        · exact hall
      rw [ih hd.2 hd'.2 htail]

theorem Ranks.unique (h : Ranks topic cards ranked) (h' : Ranks topic cards ranked') :
    ranked = ranked' := by
  refine eq_of_scoring h.descending h'.descending fun score => ?_
  by_cases hscore : 0 < score
  · rw [h.stable score hscore, h'.stable score hscore]
  · -- no card of a ranking has the score zero
    have hnone {l : List Card} (hl : Ranks topic cards l) : scoring topic score l = [] := by
      refine List.eq_nil_iff_forall_not_mem.2 fun c hc => ?_
      obtain ⟨hmem, rfl⟩ := mem_scoring.1 hc
      exact hscore (hl.relevant hmem)
    rw [hnone h, hnone h']

/-- A ranking ranks itself. -/
theorem Ranks.self (h : Ranks topic cards ranked) : Ranks topic ranked ranked := by
  have hall : relevantTo topic ranked = ranked :=
    List.filter_eq_self.2 fun _ hc => decide_eq_true (h.relevant hc)
  exact ⟨by rw [hall], h.descending, fun _ _ => rfl⟩

/-! ## It is what sorting gives -/

/-- The scores beside the cards are only looked at. -/
theorem rank_eq_mergeSort (cards : List Card) (topic : String) : rank cards topic =
    (relevantTo topic cards).mergeSort
      fun a b => decide (b.relevance topic ≤ a.relevance topic) := by
  let scored := (cards.map fun c => (c.relevance topic, c)).filter fun s => decide (0 < s.1)
  have hscores : ∀ s ∈ scored, s.1 = s.2.relevance topic := by
    intro s hs
    obtain ⟨c, -, rfl⟩ := List.mem_map.1 (List.mem_of_mem_filter hs)
    rfl
  have hcards : scored.map Prod.snd = relevantTo topic cards := by
    simp only [scored, List.filter_map, List.map_map]
    exact List.map_id _
  rw [← hcards]
  refine List.map_mergeSort fun a ha b hb => ?_
  rw [hscores a ha, hscores b hb]

theorem ranks_rank (topic : String) (cards : List Card) : Ranks topic cards (rank cards topic) := by
  let before (a b : Card) : Bool := decide (b.relevance topic ≤ a.relevance topic)
  have htrans : ∀ a b c, before a b = true → before b c = true → before a c = true := by
    intro a b c hab hbc
    rw [decide_eq_true_eq] at hab hbc ⊢
    omega
  have htotal : ∀ a b, (before a b || before b a) = true := by
    intro a b
    rw [Bool.or_eq_true, decide_eq_true_eq, decide_eq_true_eq]
    omega
  have hperm : ((relevantTo topic cards).mergeSort before).Perm (relevantTo topic cards) :=
    List.mergeSort_perm _ _
  rw [rank_eq_mergeSort]
  refine ⟨hperm, ?_, fun score hscore => ?_⟩
  · exact (List.pairwise_mergeSort htrans htotal _).imp fun h => of_decide_eq_true h
  · -- cards of one score are sorted as they stand, and a sorted sublist stays one
    have hsorted : (scoring topic score cards).Pairwise fun a b => before a b = true := by
      refine List.pairwise_of_forall_mem_list fun a ha b hb => decide_eq_true ?_
      exact Nat.le_of_eq ((mem_scoring.1 hb).2.trans (mem_scoring.1 ha).2.symm)
    have hsub : (scoring topic score cards).Sublist (relevantTo topic cards) := by
      rw [← scoring_relevantTo hscore]
      exact List.filter_sublist
    have hkept := (List.sublist_mergeSort htrans htotal hsorted hsub).filter
      fun c => decide (c.relevance topic = score)
    have hlength := (hperm.filter fun c => decide (c.relevance topic = score)).length_eq
    refine (List.Sublist.eq_of_length ?_ ?_).symm
    · rw [← scoring_scoring]
      exact hkept
    · rw [← scoring_relevantTo hscore]
      exact hlength.symm

theorem eq_rank_iff : ranked = rank cards topic ↔ Ranks topic cards ranked := by
  constructor
  · rintro rfl
    exact ranks_rank topic cards
  · intro h
    exact h.unique (ranks_rank topic cards)

theorem rank_rank (cards : List Card) (topic : String) :
    rank (rank cards topic) topic = rank cards topic :=
  (eq_rank_iff.2 (ranks_rank topic cards).self).symm

/-! ## Archives -/

/-- An archive that answers for the most relevant cards with the first of those that it answers for
the topic with, so that a larger bound only adds to an answer. -/
structure TopsTopic (archive : Archive) (topic : String) : Prop where
  first : ∀ k, archive (.topRelevant k) topic = (archive .topicRelevant topic).map (List.take k)
  grows : ∀ k k' few, k ≤ k' → archive (.topRelevant k) topic = .ok few →
    ∃ more, archive (.topRelevant k') topic = .ok more ∧ few <+: more

theorem topsTopic_of_first {archive : Archive}
    (h : ∀ k, archive (.topRelevant k) topic = (archive .topicRelevant topic).map (List.take k)) :
    TopsTopic archive topic := by
  refine ⟨h, fun k k' few hk hfew => ?_⟩
  rw [h] at hfew ⊢
  cases hall : archive .topicRelevant topic with
  | error e =>
    rw [hall] at hfew
    cases hfew
  | ok all =>
    rw [hall] at hfew
    cases hfew
    exact ⟨all.take k', rfl, List.take_prefix_take_left hk⟩

theorem Shelf.topsTopic (cards : Shelf) (topic : String) : TopsTopic cards.archive topic :=
  topsTopic_of_first fun _ => rfl

theorem Store.topsTopic (s : Store) (topic : String) : TopsTopic s.archive topic := by
  refine topsTopic_of_first fun k => ?_
  simp only [archive, select]
  cases s.cards <;> rfl

/-- The ranking of cards for a topic has the relevant ones, each as often as it was there, the more
relevant before the less and the equally relevant in their order; no other list does, and it is its
own ranking. An archive, in memory or stored, answers for its most relevant cards with the beginning
of what it answers for the topic, which is the ranking of its cards. -/
theorem ranking_exact (cards : List Card) (topic : String) :
    (∀ ranked, ranked = rank cards topic ↔ Ranks topic cards ranked) ∧
      rank (rank cards topic) topic = rank cards topic ∧
      (∀ shelf : Shelf, TopsTopic shelf.archive topic) ∧
      (∀ store : Store, TopsTopic store.archive topic) ∧
      Shelf.archive cards .topicRelevant topic = .ok (rank cards topic) ∧
      ∀ store : Store, store.cards = .ok cards →
        store.archive .topicRelevant topic = .ok (rank cards topic) := by
  refine ⟨fun _ => eq_rank_iff, rank_rank cards topic, fun shelf => shelf.topsTopic topic,
    fun store => store.topsTopic topic, rfl, fun store hstore => ?_⟩
  simp only [Store.archive, Store.select, hstore]

end RitualGate
