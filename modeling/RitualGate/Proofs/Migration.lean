import RitualGate.Proofs.ArchiveFile

/-!
# Opening stored archives of any version

An archive may be stored in any version, with or without a table (`Store.StoredAt`), on a disk that
refuses any of the commits of its migration. `migration_exact` says what opening it comes to: when
it is opened, when it is refused and for what, that an open archive is in the current version with
all of its cards and is opened again without a change, and that nothing but its file is touched.

The steps of a migration are committed one by one. If the first commit is taken and the second one
is not, then the archive stays half way: it has its table and all of its cards, but another version
(`HalfWay`). Every other archive that is not opened is left as it was.

A version below the supported ones is not refused. It is taken for the version that has its table
and lacks its index (`older_version_unrefused`).
-/

namespace RitualGate

namespace Store

variable {s₀ s : Store} {w w' : World} {path : Path} {place : Place}

/-! ## What follows for the answer -/

theorem cards_withTable {cards : List Card} (h : s₀.cards = .ok cards) (version : Int) :
    (s₀.withTable version).cards = .ok cards := by
  cases htable : s₀.table with
  | none =>
    rw [Store.cards, query, htable] at h
    cases h
  | some t =>
    rw [Store.cards, query, htable] at h
    rw [Store.cards, query, withTable, htable]
    exact h

section Opening

variable {refuses : Store → Bool} {behind : Store → World} {answer : Except ArchiveError Store}

theorem Opening.exists_ok_iff (h : Opening s₀ w refuses behind answer w') :
    (∃ s, answer = .ok s) ↔ s₀.version ≤ currentVersion ∧
      (s₀.version = 0 ∨ s₀.version = currentVersion ∨ s₀.table ≠ none) ∧
      (s₀.version = 0 → refuses (s₀.withTable 1) = false) ∧
      (s₀.version < currentVersion → refuses (s₀.withTable 2) = false) := by
  cases h with
  | tooNew hnew => simp [Int.not_le.2 hnew]
  | current hversion => simp [hversion, currentVersion]
  | noTable hold hzero hnone => simp [hzero, hnone, Int.ne_of_lt hold]
  | tableRefused hzero htable => simp [hzero, htable]
  | halfWay hzero _ hindex => simp [hzero, hindex, currentVersion]
  | indexRefused hold _ _ hindex => simp [hold, hindex]
  | migrated hold htable hindex =>
    obtain ⟨hzero, htable⟩ | ⟨hzero, hsome⟩ := htable
    · simp [hzero, htable, hindex, currentVersion]
    · simp [hzero, hsome, hindex, Int.le_of_lt hold]

theorem Opening.eq_unsupported_iff (h : Opening s₀ w refuses behind answer w') {found : Int} :
    answer = .error (.unsupportedVersion found) ↔
      currentVersion < s₀.version ∧ found = s₀.version := by
  cases h with
  | tooNew hnew => simp [hnew, eq_comm]
  | current hversion => simp [hversion]
  | tableRefused hzero | halfWay hzero => simp [hzero, currentVersion]
  | noTable hold | indexRefused hold | migrated hold => simp [Int.not_lt.2 (Int.le_of_lt hold)]

theorem Opening.eq_missing_iff (h : Opening s₀ w refuses behind answer w') :
    answer = .error .missingTable ↔
      s₀.version < currentVersion ∧ s₀.version ≠ 0 ∧ s₀.table = none := by
  cases h with
  | tooNew hnew => simp [Int.not_lt.2 (Int.le_of_lt hnew)]
  | current hversion => simp [hversion]
  | noTable hold hzero hnone => simp [hold, hzero, hnone]
  | tableRefused hzero | halfWay hzero => simp [hzero]
  | indexRefused _ _ hsome => simp [hsome]
  | migrated _ htable =>
    obtain ⟨hzero, -⟩ | ⟨-, hsome⟩ := htable
    · simp [hzero]
    · simp [hsome]

theorem Opening.eq_refused_iff (h : Opening s₀ w refuses behind answer w') :
    answer = .error .refused ↔ s₀.version = 0 ∧ refuses (s₀.withTable 1) = true ∨
      s₀.version < currentVersion ∧ (s₀.version = 0 ∨ s₀.table ≠ none) ∧
        refuses (s₀.withTable 2) = true := by
  cases h with
  | tooNew hnew =>
    have hzero : s₀.version ≠ 0 := fun hzero => absurd (hzero ▸ hnew) (by decide)
    simp [hzero, Int.not_lt.2 (Int.le_of_lt hnew)]
  | current hversion => simp [hversion, currentVersion]
  | noTable _ hzero hnone => simp [hzero, hnone]
  | tableRefused hzero htable => simp [hzero, htable]
  | halfWay hzero _ hindex => simp [hzero, hindex, currentVersion]
  | indexRefused hold _ hsome hindex => simp [hold, hsome, hindex]
  | migrated _ htable hindex =>
    obtain ⟨-, htable⟩ | ⟨hzero, -⟩ := htable
    · simp [htable, hindex]
    · simp [hzero, hindex]

theorem Opening.cards_of_ok (h : Opening s₀ w refuses behind (.ok s) w') {cards : List Card}
    (hcards : s₀.cards = .ok cards) : s.cards = .ok cards := by
  cases h with
  | current => exact hcards
  | migrated => exact cards_withTable hcards 2

theorem Opening.none_added (h : Opening s₀ w refuses behind (.ok s) w') (hnone : s₀.table = none)
    {cards : List Card} (hcards : s.cards = .ok cards) : cards = [] := by
  cases h with
  | current =>
    rw [Store.cards, query, hnone] at hcards
    cases hcards
  | migrated =>
    rw [withTable, hnone] at hcards
    cases hcards
    exact Table.cards_ascending []

/-- An archive that was not in the current version is opened as the last step made it. -/
theorem Opening.eq_withTable (h : Opening s₀ w refuses behind answer w')
    (hold : s₀.version < currentVersion) (hs : answer = .ok s) : s = s₀.withTable 2 := by
  subst hs
  cases h with
  | current hversion => exact absurd hversion (Int.ne_of_lt hold)
  | migrated => rfl

theorem Opening.of_error {e : ArchiveError} (h : Opening s₀ w refuses behind (.error e) w') :
    w' = w ∨ s₀.version = 0 ∧ refuses (s₀.withTable 1) = false ∧
      refuses (s₀.withTable 2) = true ∧ w' = behind (s₀.withTable 1) := by
  cases h with
  | tooNew | noTable | tableRefused | indexRefused => exact .inl rfl
  | halfWay hzero htable hindex => exact .inr ⟨hzero, htable, hindex, rfl⟩

theorem Opening.of_halfWay (h : Opening s₀ w refuses behind answer w') (hzero : s₀.version = 0)
    (htable : refuses (s₀.withTable 1) = false) (hindex : refuses (s₀.withTable 2) = true) :
    answer = .error .refused ∧ w' = behind (s₀.withTable 1) := by
  cases h with
  | halfWay => exact ⟨rfl, rfl⟩
  | tooNew hnew => exact absurd (hzero ▸ hnew) (by decide)
  | current hversion => exact absurd (hzero.symm.trans hversion) (by decide)
  | noTable _ hne | indexRefused _ hne => exact absurd hzero hne
  | tableRefused _ hrefused => cases htable.symm.trans hrefused
  | migrated _ _ htaken => cases hindex.symm.trans htaken

end Opening

/-! ## Stored archives -/

/-- A store is what its path leads to. A file that is not there yet stands for a fresh store. -/
structure StoredAt (s : Store) (w : World) (path : Path) (place : Place) : Prop where
  openPlace : w.tree.openPlace w.directory path = .ok place
  content : w.tree.entry place = none ∧ s = fresh ∨
    ∃ bytes, w.tree.entry place = some (.file bytes) ∧ decode bytes = .ok s

theorem storedAt_withFile (hopen : w.tree.openPlace w.directory path = .ok place) {bytes : Bytes}
    (h : decode bytes = .ok s) : s.StoredAt (w.withFile place bytes) path place :=
  ⟨(World.fileAt_withFile hopen bytes).openPlace,
    .inr ⟨bytes, (World.fileAt_withFile hopen bytes).entry, h⟩⟩

/-- Whether the disk refuses to commit the step of a migration that ends in a version. -/
def refusedAt (s₀ : Store) (w : World) (place : Place) (version : Int) : Bool :=
  w.refuses place (s₀.withTable version).encode

/-- The first step of a migration is taken and the second one is not. -/
def HalfWay (s₀ : Store) (w : World) (place : Place) : Prop :=
  s₀.version = 0 ∧ s₀.refusedAt w place 1 = false ∧ s₀.refusedAt w place 2 = true

/-- What opening a stored archive gives, and what it leaves. -/
structure Migrated (s₀ : Store) (w : World) (path : Path) (place : Place)
    (answer : Except ArchiveError Store) (w' : World) : Prop where
  /-- It is opened if it is not too new, has its table or is given one or is not asked for one, and
  the steps that are due are not refused. Nothing is asked of the version from below. -/
  opens : (∃ s, answer = .ok s) ↔ s₀.version ≤ currentVersion ∧
    (s₀.version = 0 ∨ s₀.version = currentVersion ∨ s₀.table ≠ none) ∧
    (s₀.version = 0 → s₀.refusedAt w place 1 = false) ∧
    (s₀.version < currentVersion → s₀.refusedAt w place 2 = false)
  tooNew : ∀ found, answer = .error (.unsupportedVersion found) ↔
    currentVersion < s₀.version ∧ found = s₀.version
  lacks : answer = .error .missingTable ↔
    s₀.version < currentVersion ∧ s₀.version ≠ 0 ∧ s₀.table = none
  refused : answer = .error .refused ↔ s₀.version = 0 ∧ s₀.refusedAt w place 1 = true ∨
    s₀.version < currentVersion ∧ (s₀.version = 0 ∨ s₀.table ≠ none) ∧
      s₀.refusedAt w place 2 = true
  version : ∀ s, answer = .ok s → s.version = currentVersion
  /-- The cards are those that were stored, in their order. -/
  cards : ∀ s cards, answer = .ok s → s₀.cards = .ok cards → s.cards = .ok cards
  none_added : ∀ s cards, answer = .ok s → s₀.table = none → s.cards = .ok cards → cards = []
  stored : ∀ s, answer = .ok s → s.StoredAt w' path place
  again : ∀ s, answer = .ok s → StateT.run (Store.openFile path : StateM World _) w' = (.ok s, w')
  /-- An archive that is not opened is still stored, and nothing has changed if it had a file. -/
  unchanged : ∀ e, answer = .error e → ¬ s₀.HalfWay w place →
    s₀.StoredAt w' path place ∧ (w.tree.entry place ≠ none → w' = w)
  /-- Half way it has its table and its cards, under the version of the first step. -/
  half_way : s₀.HalfWay w place → answer = .error .refused ∧
    (s₀.withTable 1).StoredAt w' path place ∧
    ∀ cards, s₀.cards = .ok cards → (s₀.withTable 1).cards = .ok cards
  elsewhere : ∃ content, w' = w.withFile place content

/-- Opening a stored archive finds its file, or makes one, and goes on from there. -/
theorem StoredAt.opening (h : s₀.StoredAt w path place) :
    ∃ content, decode content = .ok s₀ ∧
      (w.tree.entry place ≠ none → w.withFile place content = w) ∧
      let r := StateT.run (Store.openFile path : StateM World _) w
      Opening s₀ (w.withFile place content) (fun s => w.refuses place s.encode)
        (fun s => w.withFile place s.encode) r.1 r.2 := by
  obtain ⟨content, hdecode, hentry⟩ : ∃ content, decode content = .ok s₀ ∧
      (w.tree.entry place = none ∧ content = [] ∨ w.tree.entry place = some (.file content)) := by
    obtain ⟨hnone, rfl⟩ | ⟨bytes, hfile, hdecode⟩ := h.content
    · exact ⟨[], rfl, .inl ⟨hnone, rfl⟩⟩
    · exact ⟨bytes, hdecode, .inr hfile⟩
  refine ⟨content, hdecode, fun hsome => ?_, opening_place h.openPlace hentry hdecode⟩
  exact World.withFile_self (hentry.resolve_left fun hnone => hsome hnone.1)

/-- Every stored archive, of whatever version, is brought to the current one, or left as it was or
half way. -/
theorem migration_exact (h : s₀.StoredAt w path place) :
    let r := StateT.run (Store.openFile path : StateM World _) w
    Migrated s₀ w path place r.1 r.2 := by
  intro r
  obtain ⟨content, hdecode, hsame, hopening⟩ := h.opening
  have hgiven {answer : Except ArchiveError Store} (hanswer : r.1 = answer) :
      Opening s₀ (w.withFile place content) (fun s => w.refuses place s.encode)
        (fun s => w.withFile place s.encode) answer r.2 :=
    hanswer ▸ hopening
  have hs₀ := inRange_of_decode hdecode
  exact {
    opens := hopening.exists_ok_iff
    tooNew := fun found => hopening.eq_unsupported_iff
    lacks := hopening.eq_missing_iff
    refused := hopening.eq_refused_iff
    version := fun s hs => ((hgiven hs).sound hs₀).version
    cards := fun s cards hs => (hgiven hs).cards_of_ok
    none_added := fun s cards hs hnone hcards => (hgiven hs).none_added hnone hcards
    stored := fun s hs => by
      obtain ⟨bytes, hbytes, hr⟩ := (hgiven hs).exists_file hdecode
      rw [hr]
      exact storedAt_withFile h.openPlace hbytes
    again := fun s hs => by
      obtain ⟨bytes, hbytes, hr⟩ := (hgiven hs).exists_file hdecode
      rw [hr]
      exact openFile_current (World.fileAt_withFile h.openPlace bytes) hbytes
        ((hgiven hs).sound hs₀).version
    unchanged := fun e he hhalf => by
      obtain hr | ⟨hzero, htable, hindex, -⟩ := (hgiven he).of_error
      · rw [hr]
        exact ⟨storedAt_withFile h.openPlace hdecode, hsame⟩
      · exact absurd ⟨hzero, htable, hindex⟩ hhalf
    half_way := fun ⟨hzero, htable, hindex⟩ => by
      obtain ⟨hanswer, hr⟩ := hopening.of_halfWay hzero htable hindex
      rw [hr]
      exact ⟨hanswer, storedAt_withFile h.openPlace (decode_encode (inRange_withTable hs₀ 1)),
        fun cards hcards => cards_withTable hcards 1⟩
    elsewhere := by
      cases hanswer : r.1 with
      | ok s =>
        obtain ⟨bytes, -, hr⟩ := (hgiven hanswer).exists_file hdecode
        exact ⟨bytes, hr⟩
      | error e =>
        obtain hr | ⟨-, -, -, hr⟩ := (hgiven hanswer).of_error
        · exact ⟨content, hr⟩
        · exact ⟨_, hr⟩ }

/-- A world with one file, which holds a store, on a disk that refuses some contents. -/
def worldOf (s : Store) (refuses : Bytes → Bool) : World :=
  { tree := FileTree.empty.put (FileTree.placeOf ["cards"]) (.file s.encode), directory := []
    input := [], clock := fun n => ⟨n⟩, ticks := 0, faults := fun _ => none, appends := 0
    refuses := fun _ => refuses }

theorem storedAt_worldOf (h : ∀ t, s.table = some t → t.InRange) (refuses : Bytes → Bool) :
    s.StoredAt (s.worldOf refuses) (.ofText "/cards") (FileTree.placeOf ["cards"]) := by
  have htarget : (s.worldOf refuses).tree.target [] (.ofText "/cards") =
      .ok ⟨[], some (Text.encode "cards"), false⟩ := by
    have hpath : Path.ofText "/cards" = ⟨[0x2F, 0x63, 0x61, 0x72, 0x64, 0x73]⟩ := by decide +kernel
    have hname : Text.encode "cards" = [0x63, 0x61, 0x72, 0x64, 0x73] := by decide +kernel
    rw [hpath, hname]
    rfl
  have hentry : (s.worldOf refuses).tree.entry (FileTree.placeOf ["cards"]) =
      some (.file s.encode) :=
    FileTree.entry_put_self _ _ _
  have hopen : (s.worldOf refuses).tree.openPlace [] (.ofText "/cards") =
      .ok (FileTree.placeOf ["cards"]) :=
    FileTree.openPlace_eq_ok_iff.2 ⟨_, htarget, nofun, rfl, rfl, by simp [hentry]⟩
  exact ⟨hopen, .inr ⟨_, hentry, decode_encode h⟩⟩

/-- An archive without its index, whose rows have gaps in their numbers and begin below zero. -/
theorem migration_exact_unindexed :
    let a : Card := ⟨"a", "grief", "rain", "now"⟩
    let b : Card := ⟨"b", "walk", "river", "now"⟩
    let s₀ : Store := ⟨1, some ⟨[⟨-2, a⟩, ⟨7, b⟩], 9⟩⟩
    let path : Path := .ofText "/cards"
    ∃ s w', StateT.run (Store.openFile path : StateM World _) (s₀.worldOf fun _ => false) =
        (.ok s, w') ∧
      s.version = 2 ∧ s.cards = .ok [a, b] ∧ s.StoredAt w' path (FileTree.placeOf ["cards"]) ∧
      StateT.run (Store.openFile path : StateM World _) w' = (.ok s, w') := by
  intro a b s₀ path
  have hstored : s₀.StoredAt (s₀.worldOf fun _ => false) path (FileTree.placeOf ["cards"]) := by
    refine storedAt_worldOf (fun t ht => ?_) _
    cases ht
    exact ⟨by decide, by decide⟩
  have hsorted : Table.ascending ⟨[⟨-2, a⟩, ⟨7, b⟩], 9⟩ = [⟨-2, a⟩, ⟨7, b⟩] :=
    List.mergeSort_of_pairwise (by decide)
  have hcards : s₀.cards = .ok [a, b] := congrArg (Except.ok ∘ List.map Row.card) hsorted
  have hexact := migration_exact hstored
  generalize StateT.run (Store.openFile path : StateM World _) (s₀.worldOf fun _ => false) = r
    at hexact ⊢
  obtain ⟨answer, w'⟩ := r
  obtain ⟨s, rfl⟩ := hexact.opens.2 ⟨by decide, .inr (.inr nofun), nofun, fun _ => rfl⟩
  exact ⟨s, w', rfl, hexact.version s rfl, hexact.cards s _ rfl hcards, hexact.stored s rfl,
    hexact.again s rfl⟩

/-- A version below the oldest supported one is not refused for what it is: without a table it is
the index that cannot be made, and with one the archive is opened. Neither is a failed migration
always undone: an archive of version 0 is left in version 1 if the disk refuses the index. -/
theorem older_version_unrefused :
    let path : Path := .ofText "/cards"
    let table : Table := .ofCards [⟨"a", "grief", "rain", "now"⟩]
    let bare : Store := ⟨-1, none⟩
    let full : Store := ⟨-1, some table⟩
    let first : Store := ⟨0, some table⟩
    let tight := first.worldOf fun bytes => bytes == (first.withTable 2).encode
    bare.version < minVersion ∧ full.version < minVersion ∧
      (StateT.run (Store.openFile path : StateM World _) (bare.worldOf fun _ => false)).1 =
        .error .missingTable ∧
      (StateT.run (Store.openFile path : StateM World _) (full.worldOf fun _ => false)).1 =
        .ok ⟨2, some table⟩ ∧
      (StateT.run (Store.openFile path : StateM World _) tight).1 = .error .refused ∧
      StoredAt ⟨1, some table⟩ (StateT.run (Store.openFile path : StateM World _) tight).2 path
        (FileTree.placeOf ["cards"]) := by
  intro path table bare full first tight
  have hrange (version : Int) :
      ∀ t, (Store.mk version (some table)).table = some t → t.InRange := by
    intro t ht
    cases ht
    exact Table.inRange_ofCards (by decide)
  obtain ⟨_, -, -, hbare⟩ := (storedAt_worldOf (s := bare) nofun fun _ => false).opening
  obtain ⟨_, -, -, hfull⟩ := (storedAt_worldOf (s := full) (hrange (-1)) fun _ => false).opening
  have htight := storedAt_worldOf (s := first) (hrange 0)
    fun bytes => bytes == (first.withTable 2).encode
  obtain ⟨_, -, -, hhalf⟩ := htight.opening
  obtain ⟨s, hs⟩ := hfull.exists_ok_iff.2 ⟨by decide, .inr (.inr nofun), nofun, fun _ => rfl⟩
  obtain ⟨hrefused, hworld⟩ := hhalf.of_halfWay rfl (by decide +kernel) (beq_self_eq_true _)
  obtain rfl := hfull.eq_withTable (by decide) hs
  refine ⟨by decide, by decide, hbare.eq_missing_iff.2 ⟨by decide, by decide, rfl⟩, hs, hrefused,
    ?_⟩
  rw [hworld]
  exact storedAt_withFile htight.openPlace (decode_encode (hrange 1))

end Store

end RitualGate
