import RitualGate.Proofs.ArchiveOpening

/-!
# An archive is the list of the cards put into it

An archive is opened on a file that is missing or empty, and then cards are put into it and it is
opened again, in any order (`ArchiveAction`). `archive_faithful` says what holds at every point: it
answers for the cards that it took, in the order in which it took them, exactly as a shelf with
these cards does; it takes a card if and only if its id is new, and numbers the cards that it takes
from one on.

An archive that is opened again is what it was (`openFile_ofCards`). What each action does to an
archive that was `Kept` is said once (`step_old`, `step_new`, `step_full`, `step_reopen`), and
`kept_run` follows by induction.
-/

namespace RitualGate

open Session (bind_run)

/-- An archive that is opened again is what it was. -/
theorem Store.openFile_ofCards {w : World} {path : Path} {place : Place} {cards : List Card}
    (hroom : cards.length ≤ Row.maxNumber)
    (h : w.tree.FileAt w.directory path place (ofCards cards).encode) :
    StateT.run (openFile path : StateM World _) w = (.ok (ofCards cards), w) := by
  refine openFile_current h (decode_encode fun t ht => ?_) rfl
  cases ht
  exact Table.inRange_ofCards hroom

/-- A path at which there is an empty file, or can be one, on a disk that takes what is committed
there. -/
def FreshArchive (w : World) (path : Path) : Prop :=
  ∃ place, w.tree.openPlace w.directory path = .ok place ∧
    (w.tree.entry place = none ∨ w.tree.entry place = some (.file [])) ∧
    ∀ bytes, w.refuses place bytes = false

/-- What can be done with an archive. -/
inductive ArchiveAction where
  | insert (c : Card)
  | reopen

/-- An archive in use. -/
structure ArchiveUse where
  store : Store
  world : World
  /-- The cards that the archive took, in order. -/
  taken : List Card

namespace ArchiveUse

/-- Takes one action, and says what it gave: the number of a new row, or nothing. -/
def step (path : Path) (u : ArchiveUse) :
    ArchiveAction → Except ArchiveError (Option Nat) × ArchiveUse
  | .insert c =>
    match StateT.run (u.store.add path c : StateM World _) u.world with
    | (.ok (number, store), world) => (.ok (some number), ⟨store, world, u.taken ++ [c]⟩)
    | (.error e, world) => (.error e, { u with world })
  | .reopen =>
    match StateT.run (Store.openFile path : StateM World _) u.world with
    | (.ok store, world) => (.ok none, { u with store, world })
    | (.error e, world) => (.error e, { u with world })

/-- Takes actions one after the other. -/
def run (path : Path) (u : ArchiveUse) (as : List ArchiveAction) : ArchiveUse :=
  as.foldl (fun u a => (u.step path a).2) u

/-- The invariant of a use: the archive and its file hold the cards that were taken, and the disk
takes more. -/
structure Kept (path : Path) (u : ArchiveUse) : Prop where
  store : u.store = .ofCards u.taken
  file : ∃ place, u.world.tree.FileAt u.world.directory path place u.store.encode ∧
    ∀ bytes, u.world.refuses place bytes = false
  distinct : u.taken.Pairwise fun a b => a.id ≠ b.id
  room : u.taken.length ≤ Row.maxNumber

section Step

variable {path : Path} {u : ArchiveUse} {c : Card}

theorem add_error {e : ArchiveError} (h : u.store.insert c = .error e) :
    u.step path (.insert c) = (.error e, u) := by
  have hadd : StateT.run (u.store.add path c : StateM World _) u.world = (.error e, u.world) := by
    simp only [Store.add, h]
    rfl
  simp only [step, hadd]

/-- A card with an id that is taken is refused, and nothing changes. -/
theorem step_old (h : Kept path u) (hold : ∃ d ∈ u.taken, d.id = c.id) :
    u.step path (.insert c) = (.error (.duplicateCard c.id), u) := by
  obtain ⟨d, hd, hid⟩ := hold
  refine add_error ?_
  rw [h.store, Store.insert_ofCards_old hd hid]

/-- Neither does anything change if there is no number for a card. -/
theorem step_full (h : Kept path u) (hnew : ∀ d ∈ u.taken, d.id ≠ c.id)
    (hfull : ¬ u.taken.length < Row.maxNumber) :
    u.step path (.insert c) = (.error (.table .full), u) := by
  refine add_error ?_
  rw [h.store, Store.insert_ofCards_new hnew, if_neg hfull]

/-- Any other card is taken, and gets the next number. -/
theorem step_new (h : Kept path u) (hnew : ∀ d ∈ u.taken, d.id ≠ c.id)
    (hroom : u.taken.length < Row.maxNumber) :
    ∃ u', u.step path (.insert c) = (.ok (some (u.taken.length + 1)), u') ∧
      u'.taken = u.taken ++ [c] ∧ Kept path u' := by
  obtain ⟨place, hfile, htakes⟩ := h.file
  let s : Store := .ofCards (u.taken ++ [c])
  have hsave : StateT.run (s.save path : StateM World _) u.world =
      (.ok (), u.world.withFile place s.encode) := by
    rw [Store.save_file hfile, htakes]
    rfl
  have hadd : StateT.run (u.store.add path c : StateM World _) u.world =
      (.ok (u.taken.length + 1, s), u.world.withFile place s.encode) := by
    rw [Store.add, h.store, Store.insert_ofCards_new hnew, if_pos hroom]
    dsimp only
    rw [bind_run, hsave]
    rfl
  refine ⟨⟨s, u.world.withFile place s.encode, u.taken ++ [c]⟩, by simp only [step, hadd], rfl,
    rfl, ⟨place, World.fileAt_withFile hfile.openPlace s.encode, htakes⟩, ?_, ?_⟩
  · rw [List.pairwise_append]
    refine ⟨h.distinct, List.pairwise_singleton _ _, fun d hd e he => ?_⟩
    obtain rfl := List.mem_singleton.1 he
    exact hnew d hd
  · rw [List.length_append]
    exact hroom

theorem step_reopen (h : Kept path u) : u.step path .reopen = (.ok none, u) := by
  obtain ⟨place, hfile, -⟩ := h.file
  rw [h.store] at hfile
  simp only [step, Store.openFile_ofCards h.room hfile, ← h.store]

theorem kept_step (h : Kept path u) (a : ArchiveAction) : Kept path (u.step path a).2 := by
  cases a with
  | reopen =>
    rw [step_reopen h]
    exact h
  | insert c =>
    by_cases hold : ∃ d ∈ u.taken, d.id = c.id
    · rw [step_old h hold]
      exact h
    have hnew : ∀ d ∈ u.taken, d.id ≠ c.id := fun d hd hid => hold ⟨d, hd, hid⟩
    by_cases hroom : u.taken.length < Row.maxNumber
    · obtain ⟨u', hstep, -, hkept⟩ := step_new h hnew hroom
      rw [hstep]
      exact hkept
    · rw [step_full h hnew hroom]
      exact h

theorem kept_run (h : Kept path u) (as : List ArchiveAction) : Kept path (u.run path as) := by
  induction as generalizing u with
  | nil => exact h
  | cons a as ih => exact ih (kept_step h a)

end Step

/-- The first opening finds or makes an archive without cards. -/
theorem exists_openFile {w : World} {path : Path} (h : FreshArchive w path) :
    ∃ s w', StateT.run (Store.openFile path : StateM World _) w = (.ok s, w') ∧
      Kept path ⟨s, w', []⟩ := by
  obtain ⟨place, hopen, hentry, htakes⟩ := h
  exact ⟨.ofCards [], _, Store.openFile_fresh hopen hentry htakes, rfl,
    ⟨place, World.fileAt_withFile hopen _, htakes⟩, .nil, Nat.zero_le _⟩

/-- What an action gives, after some cards were taken, and that it changes nothing if it fails. -/
structure Explained (u : ArchiveUse) (a : ArchiveAction) (answer : Except ArchiveError (Option Nat))
    (u' : ArchiveUse) : Prop where
  duplicate : ∀ c, a = .insert c →
    ((∃ id, answer = .error (.duplicateCard id)) ↔ ∃ d ∈ u.taken, d.id = c.id)
  unchanged : ∀ e, answer = .error e → u' = u
  /-- The cards that are taken are numbered from one on. -/
  number : ∀ n, answer = .ok (some n) → n = u.taken.length + 1
  /-- A card with a new id is taken as long as there are numbers. -/
  inserted : ∀ c, a = .insert c → (∀ d ∈ u.taken, d.id ≠ c.id) →
    u.taken.length < Row.maxNumber →
    answer = .ok (some (u.taken.length + 1)) ∧ u'.taken = u.taken ++ [c]
  reopened : a = .reopen → answer = .ok none ∧ u' = u

theorem explained_step {path : Path} {u : ArchiveUse} (h : Kept path u) (a : ArchiveAction) :
    Explained u a (u.step path a).1 (u.step path a).2 := by
  cases a with
  | reopen =>
    rw [step_reopen h]
    exact ⟨nofun, nofun, nofun, nofun, fun _ => ⟨rfl, rfl⟩⟩
  | insert c =>
    by_cases hold : ∃ d ∈ u.taken, d.id = c.id
    · rw [step_old h hold]
      refine ⟨?_, fun _ _ => rfl, nofun, ?_, nofun⟩
      · intro _ ha
        cases ha
        exact ⟨fun _ => hold, fun _ => ⟨c.id, rfl⟩⟩
      · intro _ ha hnew
        cases ha
        obtain ⟨d, hd, hid⟩ := hold
        exact absurd hid (hnew d hd)
    have hnew : ∀ d ∈ u.taken, d.id ≠ c.id := fun d hd hid => hold ⟨d, hd, hid⟩
    by_cases hroom : u.taken.length < Row.maxNumber
    · obtain ⟨u', hstep, htaken, -⟩ := step_new h hnew hroom
      rw [hstep]
      refine ⟨?_, nofun, ?_, ?_, nofun⟩
      · intro _ ha
        cases ha
        exact ⟨nofun, fun hold' => absurd hold' hold⟩
      · intro n hn
        cases hn
        rfl
      · intro _ ha _ _
        cases ha
        exact ⟨rfl, htaken⟩
    · rw [step_full h hnew hroom]
      refine ⟨?_, fun _ _ => rfl, nofun, ?_, nofun⟩
      · intro _ ha
        cases ha
        exact ⟨nofun, fun hold' => absurd hold' hold⟩
      · intro _ _ _ hroom'
        exact absurd hroom' hroom

/-- Whatever is done with an archive that was fresh, it answers for the cards that it took as a
shelf does, and takes a card exactly if its id is new. -/
theorem archive_faithful {w : World} {path : Path} (h : FreshArchive w path) :
    ∃ s w', StateT.run (Store.openFile path : StateM World _) w = (.ok s, w') ∧
      ∀ as : List ArchiveAction,
        let u := ArchiveUse.run path ⟨s, w', []⟩ as
        u.store.Answers u.taken ∧ ∀ a, Explained u a (u.step path a).1 (u.step path a).2 := by
  obtain ⟨s, w', hopen, hkept⟩ := exists_openFile h
  refine ⟨s, w', hopen, fun as => ?_⟩
  have hrun := kept_run hkept as
  refine ⟨?_, fun a => explained_step hrun a⟩
  rw [hrun.store]
  exact Store.answers_ofCards hrun.distinct hrun.room

/-- Two cards, the second of which is refused once and taken under another id after the archive was
opened again. -/
theorem archive_faithful_reopened :
    let w : World := ⟨.empty, [], [], fun n => ⟨n⟩, 0, fun _ => none, 0, fun _ _ => false⟩
    let path : Path := .ofText "archive.db"
    let c : Card := ⟨"walk", "river \"north\"\n", "mist", ""⟩
    let as : List ArchiveAction :=
      [.insert c, .insert { c with content := "again" }, .reopen, .insert { c with id := "rest" }]
    FreshArchive w path ∧
      ∃ s w', StateT.run (Store.openFile path : StateM World _) w = (.ok s, w') ∧
      let u := ArchiveUse.run path ⟨s, w', []⟩ as
      u.taken = [c, { c with id := "rest" }] ∧
        u.store.latest 18446744073709551615 = .ok [{ c with id := "rest" }, c] ∧
        u.store.archive (.id "walk") "river" = .ok [c] := by
  intro w path c as
  have hfresh : FreshArchive w path :=
    ⟨FileTree.placeOf ["archive.db"], by decide +kernel, .inl (by decide +kernel), fun _ => rfl⟩
  obtain ⟨s, w', hopen, hrun⟩ := archive_faithful hfresh
  set u : ArchiveUse := ⟨s, w', []⟩
  have h₁ : (u.run path (as.take 1)).taken = [c] :=
    (((hrun []).2 (.insert c)).inserted c rfl nofun (show 0 < Row.maxNumber by decide)).2
  have h₂ : u.run path (as.take 2) = u.run path (as.take 1) := by
    have hstep := (hrun (as.take 1)).2 (.insert { c with content := "again" })
    obtain ⟨id, hanswer⟩ := (hstep.duplicate _ rfl).2 ⟨c, by rw [h₁]; exact List.mem_cons_self, rfl⟩
    exact hstep.unchanged _ hanswer
  have h₃ : u.run path (as.take 3) = u.run path (as.take 2) :=
    (((hrun (as.take 2)).2 .reopen).reopened rfl).2
  have htaken : (u.run path as).taken = [c, { c with id := "rest" }] := by
    have htaken₃ : (u.run path (as.take 3)).taken = [c] := by rw [h₃, h₂, h₁]
    have hstep := (hrun (as.take 3)).2 (.insert { c with id := "rest" })
    have hnew : ∀ d ∈ (u.run path (as.take 3)).taken, d.id ≠ "rest" := by
      rw [htaken₃]
      decide
    have hinserted := (hstep.inserted _ rfl hnew (by rw [htaken₃]; decide)).2
    rw [htaken₃] at hinserted
    exact hinserted
  refine ⟨hfresh, s, w', hopen, htaken, ?_, ?_⟩
  · rw [(hrun as).1.latest, htaken]
    rfl
  · rw [(hrun as).1.lookup, htaken]
    decide +kernel

end ArchiveUse

end RitualGate
