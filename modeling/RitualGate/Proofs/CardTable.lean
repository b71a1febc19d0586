import Mathlib.Data.List.Nodup
import RitualGate.Archive.Store

/-!
# Tables that cards were only added to

Rows are never taken out of a table, so a table that cards were added to one by one is the table
`ofCards` of these cards, with the rows numbered from one. Its rows in ascending order are the cards
in the order in which they came, and in descending order the cards backwards (`cards_ascending`,
`cards_descending`). There are no more rows than numbers, so a limit that is cut down to the largest
number cuts nothing off (`take_limit`). A store with such a table answers like a shelf with the same
cards (`answers_ofCards`).
-/

namespace RitualGate

namespace Table

/-- Rows for cards, numbered from a number on. -/
def rowsFrom (n : Nat) : List Card → List Row
  | [] => []
  | c :: cs => ⟨n, c⟩ :: rowsFrom (n + 1) cs

/-- The table that some cards were added to, one after the other. -/
def ofCards (cards : List Card) : Table :=
  ⟨rowsFrom 1 cards, cards.length⟩

theorem map_card_rowsFrom (n : Nat) (cards : List Card) :
    (rowsFrom n cards).map Row.card = cards := by
  induction cards generalizing n with
  | nil => rfl
  | cons c cs ih => rw [rowsFrom, List.map_cons, ih]

theorem rowsFrom_concat (n : Nat) (cards : List Card) (c : Card) :
    rowsFrom n (cards ++ [c]) = rowsFrom n cards ++ [⟨n + cards.length, c⟩] := by
  induction cards generalizing n with
  | nil => rfl
  | cons d ds ih =>
    have hnumber : ((n + 1 : Nat) : Int) + ds.length = n + (d :: ds).length := by
      rw [List.length_cons]
      omega
    rw [List.cons_append, rowsFrom, ih, rowsFrom, List.cons_append, hnumber]

theorem number_rowsFrom {n : Nat} {cards : List Card} {r : Row} (h : r ∈ rowsFrom n cards) :
    n ≤ r.number ∧ r.number < n + cards.length := by
  induction cards generalizing n with
  | nil => cases h
  | cons c cs ih =>
    rw [List.length_cons]
    rcases List.mem_cons.1 h with rfl | h
    · dsimp only
      omega
    · have hr := ih h
      omega

theorem pairwise_rowsFrom (n : Nat) (cards : List Card) :
    (rowsFrom n cards).Pairwise fun a b => a.number < b.number := by
  induction cards generalizing n with
  | nil => exact .nil
  | cons c cs ih =>
    refine .cons (fun r hr => ?_) (ih (n + 1))
    have hr := number_rowsFrom hr
    show (n : Int) < r.number
    omega

/-! ## Orders -/

theorem cards_ascending (cards : List Card) :
    (ofCards cards).ascending.map Row.card = cards := by
  have hsorted : (rowsFrom 1 cards).Pairwise fun a b => decide (a.number ≤ b.number) = true :=
    (pairwise_rowsFrom 1 cards).imp fun h => decide_eq_true (Int.le_of_lt h)
  rw [ascending, ofCards, List.mergeSort_of_pairwise hsorted, map_card_rowsFrom]

/-- Rows that ascend are sorted the other way round by reversing them. -/
theorem descending_eq_reverse {t : Table} (h : t.rows.Pairwise fun a b => a.number < b.number) :
    t.descending = t.rows.reverse := by
  have hperm : t.descending.Perm t.rows.reverse :=
    (List.mergeSort_perm _ _).trans (List.reverse_perm _).symm
  have hsorted : t.descending.Pairwise fun a b => b.number ≤ a.number := by
    refine (List.pairwise_mergeSort ?_ ?_ t.rows).imp fun h => of_decide_eq_true h
    · intro a b c hab hbc
      rw [decide_eq_true_eq] at hab hbc ⊢
      omega
    · intro a b
      rw [Bool.or_eq_true, decide_eq_true_eq, decide_eq_true_eq]
      omega
  have hreverse : t.rows.reverse.Pairwise fun a b => b.number ≤ a.number :=
    List.pairwise_reverse.2 (h.imp fun h => Int.le_of_lt h)
  -- two rows with one number are one row, so the two orders can differ nowhere
  have hnodup : (t.rows.map Row.number).Nodup :=
    List.pairwise_map.2 (h.imp fun h => Int.ne_of_lt h)
  refine hperm.eq_of_pairwise (fun a b ha hb hab hba => ?_) hsorted hreverse
  have hmem : a ∈ t.rows := (List.mergeSort_perm _ _).subset ha
  exact List.inj_on_of_nodup_map hnodup hmem (List.mem_reverse.1 hb) (Int.le_antisymm hba hab)

theorem cards_descending (cards : List Card) :
    (ofCards cards).descending.map Row.card = cards.reverse := by
  have hsorted : (ofCards cards).rows.Pairwise fun a b => a.number < b.number :=
    pairwise_rowsFrom 1 cards
  rw [descending_eq_reverse hsorted, List.map_reverse, ofCards, map_card_rowsFrom]

/-! ## Cards by id -/

theorem map_card_find? (cards : List Card) (id : String) :
    ((ofCards cards).find? id).map Row.card = cards.find? fun c => c.id == id := by
  have hcards : (cards.find? fun c => c.id == id) =
      ((rowsFrom 1 cards).map Row.card).find? fun c => c.id == id := by
    rw [map_card_rowsFrom]
  rw [hcards, List.find?_map]
  rfl

theorem isSome_find? (cards : List Card) (id : String) :
    ((ofCards cards).find? id).isSome = cards.any fun c => c.id == id := by
  rw [← Option.isSome_map (f := Row.card), map_card_find?, List.isSome_find?]

/-- A card with a new id gets the row behind all others, as long as there is a number for it. -/
theorem insert_ofCards {cards : List Card} {c : Card} (hnew : ∀ d ∈ cards, d.id ≠ c.id) :
    (ofCards cards).insert c =
      if cards.length < Row.maxNumber then .ok (cards.length + 1, ofCards (cards ++ [c]))
      else .error .full := by
  have hunique : ((ofCards cards).rows.any fun r => r.card.id == c.id) = false := by
    rw [List.any_eq_false]
    intro r hr
    have hcard : r.card ∈ cards := by
      rw [← map_card_rowsFrom 1 cards]
      exact List.mem_map_of_mem hr
    simpa using hnew r.card hcard
  have hgrown : ofCards (cards ++ [c]) =
      ⟨(ofCards cards).rows ++ [⟨cards.length + 1, c⟩], cards.length + 1⟩ := by
    have hnumber : ((1 : Nat) : Int) + cards.length = cards.length + 1 := by omega
    rw [ofCards, rowsFrom_concat, hnumber, List.length_append]
    rfl
  rw [insert, hunique, hgrown]
  rfl

end Table

namespace Store

/-- A store of the current version with the table of some cards. -/
def ofCards (cards : List Card) : Store :=
  ⟨currentVersion, some (.ofCards cards)⟩

/-- A store answers for some cards: they are what it lists, no two of them with one id, each of them
is found by its id and nothing else is, the newest come first, and every reference is answered as by
a shelf that the cards stand on. -/
structure Answers (s : Store) (cards : List Card) : Prop where
  list : s.cards = .ok cards
  distinct : cards.Pairwise fun a b => a.id ≠ b.id
  found : ∀ id c, s.get id = .ok (some c) ↔ c ∈ cards ∧ c.id = id
  missing : ∀ id, s.get id = .ok none ↔ ∀ c ∈ cards, c.id ≠ id
  latest : ∀ n, s.latest n = .ok (cards.reverse.take n)
  lookup : ∀ r topic, s.archive r topic = Shelf.archive cards r topic

variable {cards : List Card}

theorem cards_ofCards (cards : List Card) : (ofCards cards).cards = .ok cards :=
  congrArg Except.ok (Table.cards_ascending cards)

theorem get_ofCards (cards : List Card) (id : String) :
    (ofCards cards).get id = .ok (cards.find? fun c => c.id == id) :=
  congrArg Except.ok (Table.map_card_find? cards id)

/-- No list of rows is longer than a limit that was cut down. -/
theorem take_limit (h : cards.length ≤ Row.maxNumber) (n : Nat) :
    cards.reverse.take (limit n) = cards.reverse.take n := by
  rw [limit]
  by_cases hn : n ≤ Row.maxNumber
  · rw [Nat.min_eq_left hn]
  · rw [Nat.min_eq_right (by omega), List.take_of_length_le (by rwa [List.length_reverse]),
      List.take_of_length_le (by rw [List.length_reverse]; omega)]

theorem latest_ofCards (h : cards.length ≤ Row.maxNumber) (n : Nat) :
    (ofCards cards).latest n = .ok (cards.reverse.take n) := by
  rw [← take_limit h, ← Table.cards_descending, ← List.map_take]
  rfl

theorem find?_eq_some_iff (hdistinct : cards.Pairwise fun a b => a.id ≠ b.id) {id : String}
    {c : Card} : (cards.find? fun c => c.id == id) = some c ↔ c ∈ cards ∧ c.id = id := by
  constructor
  · intro h
    exact ⟨List.mem_of_find?_eq_some h, by simpa using List.find?_some h⟩
  · rintro ⟨hc, rfl⟩
    obtain ⟨before, after, rfl⟩ := List.append_of_mem hc
    -- the cards before it have other ids
    have hbefore : ∀ d ∈ before, (!(d.id == c.id)) = true := by
      intro d hd
      have hne := (List.pairwise_append.1 hdistinct).2.2 d hd c List.mem_cons_self
      simpa using hne
    rw [List.find?_append, List.find?_eq_none.2 (by simpa using hbefore)]
    simp

theorem lookup_ofCards (h : cards.length ≤ Row.maxNumber) (r : CardRef) (topic : String) :
    (ofCards cards).archive r topic = Shelf.archive cards r topic := by
  cases r with
  | id text =>
    simp only [archive, select, get_ofCards, Shelf.archive, Shelf.select]
    rw [List.take_one, List.head?_filter]
  | latest n => simp only [archive, select, latest_ofCards h, Shelf.archive, Shelf.select]
  | topicRelevant => simp only [archive, select, cards_ofCards, Shelf.archive, Shelf.select]
  | topRelevant k => simp only [archive, select, cards_ofCards, Shelf.archive, Shelf.select]

theorem answers_ofCards (hdistinct : cards.Pairwise fun a b => a.id ≠ b.id)
    (h : cards.length ≤ Row.maxNumber) : Answers (ofCards cards) cards where
  list := cards_ofCards cards
  distinct := hdistinct
  found id c := by
    rw [get_ofCards, Except.ok.injEq, find?_eq_some_iff hdistinct]
  missing id := by
    rw [get_ofCards, Except.ok.injEq, List.find?_eq_none]
    simp
  latest := latest_ofCards h
  lookup := lookup_ofCards h

/-! ## Adding cards -/

theorem insert_ofCards_old {c d : Card} (hd : d ∈ cards) (hid : d.id = c.id) :
    (ofCards cards).insert c = .error (.duplicateCard c.id) := by
  have hsome : ((Table.ofCards cards).find? c.id).isSome = true := by
    rw [Table.isSome_find?, List.any_eq_true]
    exact ⟨d, hd, by simpa using hid⟩
  simp only [insert, ofCards, hsome, if_true]

theorem insert_ofCards_new {c : Card} (hnew : ∀ d ∈ cards, d.id ≠ c.id) :
    (ofCards cards).insert c =
      if cards.length < Row.maxNumber then .ok (cards.length + 1, ofCards (cards ++ [c]))
      else .error (.table .full) := by
  have hnone : ((Table.ofCards cards).find? c.id).isSome = false := by
    rw [Table.isSome_find?, List.any_eq_false]
    intro d hd
    simpa using hnew d hd
  by_cases hroom : cards.length < Row.maxNumber
  · simp only [insert, ofCards, hnone, Bool.false_eq_true, if_false, Table.insert_ofCards hnew,
      hroom, if_true]
  · simp only [insert, ofCards, hnone, Bool.false_eq_true, if_false, Table.insert_ofCards hnew,
      hroom]

end Store

end RitualGate
