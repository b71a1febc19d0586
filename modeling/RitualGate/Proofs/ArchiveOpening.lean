import RitualGate.Archive.File
import RitualGate.Proofs.CardTable
import RitualGate.Proofs.FileTree
import RitualGate.Proofs.Log
import RitualGate.Proofs.Run

/-!
# Opening archives

A store is read back from its file (`decode_encode`). Opening one makes its file if there is none
(`load_place`) and takes the steps of the migration that are due, each of which is committed by
itself (`migrate_take`). A commit changes a file as a whole or not at all, as the disk decides, and
a device never (`Commits`).

What opening can come to is said once, by the store that was loaded and by the commits that are
refused (`Opening`, `opening_openFile`). A store that is too new or lacks its table is refused
before anything is committed; a commit that is refused leaves what the one before it made. A store
in the current version is opened without a commit (`openFile_current`), and a missing or an empty
file becomes an archive without cards if the disk takes everything (`openFile_fresh`).
-/

namespace RitualGate

open Data (Value)
open Session (bind_run)

/-! ## Reading stores back -/

namespace Data.Decode

theorem list_map {α : Type} {d : Decoder α} {f : α → Value} {as : List α}
    (h : ∀ a ∈ as, d (f a) = .ok a) : list d (.list (as.map f)) = .ok as := by
  show each d (as.map f) = .ok as
  induction as with
  | nil => rfl
  | cons a as ih =>
    obtain ⟨ha, has⟩ := List.forall_mem_cons.1 h
    simp only [List.map_cons, each, ha, ih has]

theorem nat_nat {limit n : Nat} (h : n ≤ limit) : nat limit (.nat n) = .ok n :=
  if_pos h

theorem int_int {least greatest n : Int} (h : least ≤ n ∧ n ≤ greatest) :
    int least greatest (.int n) = .ok n :=
  if_pos h

end Data.Decode

theorem Card.writable_toValue (c : Card) : c.toValue.Writable := by
  simp [toValue]

theorem Row.writable_toValue (r : Row) : r.toValue.Writable := by
  simp [toValue, Card.writable_toValue]

open Data.Fields in
theorem Row.ofValue_toValue {r : Row} (h : minNumber ≤ r.number ∧ r.number ≤ maxNumber) :
    ofValue r.toValue = .ok r := by
  obtain ⟨number, card⟩ := r
  have hcard : Card.ofValue card.toValue = .ok card := rfl
  refine decode_eq_ok rfl rfl ?_
  refine seq_eq_ok ?_ (withDefault_eq_ok rfl hcard)
  exact seq_eq_ok rfl (withDefault_eq_ok rfl (Data.Decode.int_int h))

namespace Table

/-- The numbers of a table are neither too small nor too large. -/
def InRange (t : Table) : Prop :=
  (∀ r ∈ t.rows, Row.minNumber ≤ r.number ∧ r.number ≤ Row.maxNumber) ∧
    t.lastNumber ≤ Row.maxNumber

theorem inRange_ofCards {cards : List Card} (h : cards.length ≤ Row.maxNumber) :
    (ofCards cards).InRange := by
  refine ⟨fun r hr => ?_, h⟩
  have hr := number_rowsFrom hr
  rw [Row.minNumber]
  omega

theorem writable_toValue (t : Table) : t.toValue.Writable := by
  simp [toValue, Value.writable_list_map Row.writable_toValue]

open Data.Fields in
theorem ofValue_toValue {t : Table} (h : t.InRange) : ofValue t.toValue = .ok t := by
  obtain ⟨rows, lastNumber⟩ := t
  obtain ⟨hnumbers, hlast⟩ := h
  have hrows : Data.Decode.list Row.ofValue (.list (rows.map Row.toValue)) = .ok rows :=
    Data.Decode.list_map fun r hr => Row.ofValue_toValue (hnumbers r hr)
  refine decode_eq_ok rfl rfl ?_
  refine seq_eq_ok ?_ (withDefault_eq_ok rfl (Data.Decode.nat_nat hlast))
  exact seq_eq_ok rfl (withDefault_eq_ok rfl hrows)

end Table

namespace Store

theorem encode_ne_nil (s : Store) : s.encode ≠ [] := by
  have hbanner : Text.encode banner ≠ [] := by decide +kernel
  rw [encode, Text.encode_append, Text.encode_append, List.append_assoc]
  exact List.append_ne_nil_of_left_ne_nil hbanner _

open Data.Fields in
/-- A store is read back from its file. -/
theorem decode_encode {s : Store} (h : ∀ t, s.table = some t → t.InRange) :
    decode s.encode = .ok s := by
  obtain ⟨version, table⟩ := s
  let v := Value.table [("version", .int version), ("cards", .option Table.toValue table)]
  have hbytes : encode ⟨version, table⟩ =
      Text.encode (banner ++ (Data.Json.compact v ++ "\n")) := by
    rw [← String.append_assoc]
    rfl
  have hnonempty : (encode ⟨version, table⟩).isEmpty = false :=
    List.isEmpty_eq_false_iff.2 (encode_ne_nil _)
  have hwritable : v.Writable := by simp [v, Value.writable_option Table.writable_toValue]
  have hparse : Data.Json.parse? (Data.Json.compact v ++ "\n") = some v := by
    refine Data.Json.parse?_compact_append hwritable fun c hc => ?_
    obtain rfl : c = '\n' := by simpa using hc
    rfl
  have hread : ofValue v = .ok ⟨version, table⟩ := by
    have htable : Data.Decode.option Table.ofValue (.option Table.toValue table) = .ok table := by
      cases table with
      | none => rfl
      | some t =>
        simp only [Value.option, Data.Decode.option, Table.ofValue_toValue (h t rfl)]
        rfl
    exact decode_eq_ok rfl rfl (seq_eq_ok (seq_eq_ok rfl (withDefault_eq_ok rfl rfl))
      (withDefault_eq_ok rfl htable))
  have hstrip : Text.stripHead? banner.toList (banner ++ (Data.Json.compact v ++ "\n")).toList =
      some (Data.Json.compact v ++ "\n").toList := by
    rw [Text.stripHead?_eq_some_iff, String.toList_append]
  rw [decode, hnonempty, hbytes, Text.decode?_encode]
  simp only [Bool.false_eq_true, if_false, Option.bind_eq_bind, Option.bind_some, hstrip,
    String.ofList_toList, hparse, hread]

/-! ## Loading -/

variable {s s₀ : Store} {w w' : World} {path : Path} {place : Place} {content : Bytes}

theorem load_file (h : w.tree.FileAt w.directory path place content) :
    StateT.run (load path : StateM World _) w = (.ok content, w) := by
  rw [load, bind_run, World.touch_file h]
  show (w.tree.read w.directory path, w) = _
  rw [h.read]

theorem load_missing (hopen : w.tree.openPlace w.directory path = .ok place)
    (hentry : w.tree.entry place = none) :
    StateT.run (load path : StateM World _) w =
      (.ok [], w.withFile place []) := by
  have htouch : StateT.run (Host.touch path : StateM World _) w =
      (.ok (), w.withFile place []) := by
    refine World.change_eq_ok_iff.2 ⟨_, ?_, rfl⟩
    simp only [FileTree.touch, hopen, hentry]
  rw [load, bind_run, htouch]
  exact congrArg (·, w.withFile place []) (World.fileAt_withFile hopen []).read

theorem load_device (hopen : w.tree.openPlace w.directory path = .ok place) {d : Device}
    (hentry : w.tree.entry place = some (.device d)) :
    StateT.run (load path : StateM World _) w = (.ok [], w) := by
  have htouch : StateT.run (Host.touch path : StateM World _) w = (.ok (), w) := by
    refine World.change_eq_ok_iff.2 ⟨w.tree, ?_, rfl⟩
    simp only [FileTree.touch, hopen, hentry]
  rw [load, bind_run, htouch]
  show (w.tree.read w.directory path, w) = _
  rw [FileTree.read, FileTree.lookup_of_openPlace hopen hentry]

/-- After a file was loaded it is there. -/
theorem load_place (hopen : w.tree.openPlace w.directory path = .ok place)
    (hentry : w.tree.entry place = none ∧ content = [] ∨
      w.tree.entry place = some (.file content)) :
    StateT.run (load path : StateM World _) w = (.ok content, w.withFile place content) := by
  rcases hentry with ⟨hnone, rfl⟩ | hfile
  · exact load_missing hopen hnone
  · rw [load_file ⟨hopen, hfile⟩, World.withFile_self hfile]

/-- What can be loaded is a file, which may be new, or a device. -/
theorem load_eq_ok {w₁ : World}
    (h : StateT.run (load path : StateM World _) w = (.ok content, w₁)) :
    ∃ place, w.tree.openPlace w.directory path = .ok place ∧
      ((w.tree.entry place = none ∧ content = [] ∨ w.tree.entry place = some (.file content)) ∨
        (∃ d, w.tree.entry place = some (.device d)) ∧ content = [] ∧ w₁ = w) := by
  cases hopen : w.tree.openPlace w.directory path with
  | error e =>
    have htouch : StateT.run (Host.touch path : StateM World _) w = (.error e, w) := by
      show w.change (w.tree.touch w.directory path) = _
      rw [FileTree.touch, hopen]
      rfl
    rw [load, bind_run, htouch] at h
    cases h
  | ok place =>
    refine ⟨place, rfl, ?_⟩
    cases hentry : w.tree.entry place with
    | none =>
      rw [load_missing hopen hentry] at h
      cases h
      exact .inl (.inl ⟨rfl, rfl⟩)
    | some e =>
      cases e with
      | file old =>
        rw [load_file ⟨hopen, hentry⟩] at h
        cases h
        exact .inl (.inr rfl)
      | directory =>
        obtain ⟨-, -, -, -, -, hdirectory⟩ := FileTree.openPlace_eq_ok_iff.1 hopen
        exact absurd hentry hdirectory
      | device d =>
        rw [load_device hopen hentry] at h
        cases h
        exact .inr ⟨⟨d, rfl⟩, rfl, rfl⟩

/-! ## Commits -/

theorem save_run (s : Store) (w : World) (path : Path) :
    StateT.run (s.save path : StateM World _) w =
      match w.tree.writeUnless w.refuses w.directory path s.encode with
      | .ok t => (.ok (), { w with tree := t })
      | .error _ => (.error .refused, w) := by
  have hcommit : StateT.run (Host.commit path s.encode : StateM World _) w =
      w.change (w.tree.writeUnless w.refuses w.directory path s.encode) := rfl
  rw [save, bind_run, hcommit]
  cases w.tree.writeUnless w.refuses w.directory path s.encode <;> rfl

/-- What becomes of commits: which stores are refused, and the world behind one that is not. A store
is taken as a whole, or nothing changes. -/
structure Commits (path : Path) (w : World) (refuses : Store → Bool) (behind : Store → World) :
    Prop where
  first : ∀ s, StateT.run (Store.save s path : StateM World _) w =
    if refuses s then (.error .refused, w) else (.ok (), behind s)
  later : ∀ s s', StateT.run (Store.save s' path : StateM World _) (behind s) =
    if refuses s' then (.error .refused, behind s) else (.ok (), behind s')

theorem save_file (h : w.tree.FileAt w.directory path place content) (s : Store) :
    StateT.run (s.save path : StateM World _) w =
      if w.refuses place s.encode then (.error .refused, w)
      else (.ok (), w.withFile place s.encode) := by
  rw [save_run, FileTree.writeUnless_of_openPlace h.openPlace (.inr ⟨_, h.entry⟩)]
  cases w.refuses place s.encode <;> rfl

theorem commits_file (h : w.tree.FileAt w.directory path place content) :
    Commits path w (fun s => w.refuses place s.encode) (fun s => w.withFile place s.encode) where
  first := save_file h
  later s s' := by
    rw [save_file (World.fileAt_withFile h.openPlace s.encode), World.withFile_withFile]
    rfl

/-- A device takes everything or nothing, and stays as it is. -/
theorem commits_device (hopen : w.tree.openPlace w.directory path = .ok place) {d : Device}
    (hentry : w.tree.entry place = some (.device d)) :
    Commits path w (fun _ => decide (d = .full)) (fun _ => w) := by
  have hsave (s : Store) : StateT.run (s.save path : StateM World _) w =
      if decide (d = .full) then (.error .refused, w) else (.ok (), w) := by
    rw [save_run]
    cases d with
    | null =>
      simp only [FileTree.writeUnless, hopen, hentry]
      rfl
    | full =>
      simp only [FileTree.writeUnless, hopen, hentry, if_neg (encode_ne_nil s)]
      rfl
  exact ⟨hsave, fun _ => hsave⟩

/-! ## Steps of the migration -/

section Steps

variable {step : Step} {steps : List Step}

theorem migrate_skip (hdue : step.due s.version = false) :
    (migrate path s (step :: steps) : StateM World _) = migrate path s steps := by
  rw [migrate, hdue]
  rfl

theorem migrate_fail {e : ArchiveError} (hdue : step.due s.version = true)
    (happly : step.apply s = .error e) :
    StateT.run (migrate path s (step :: steps) : StateM World _) w = (.error e, w) := by
  rw [migrate, if_pos hdue, happly]
  rfl

/-- A step is taken with its commit, and is the last one if that is refused. -/
theorem migrate_take {s' : Store} (hdue : step.due s.version = true)
    (happly : step.apply s = .ok s') :
    StateT.run (migrate path s (step :: steps) : StateM World _) w =
      match StateT.run (s'.save path : StateM World _) w with
      | (.ok (), w') => StateT.run (migrate path s' steps : StateM World _) w'
      | (.error e, w') => (.error e, w') := by
  rw [migrate, if_pos hdue, happly]
  dsimp only
  rw [bind_run]
  rcases StateT.run (s'.save path : StateM World _) w with ⟨_ | _, w'⟩ <;> rfl

end Steps

/-! ## What opening can do -/

/-- A store with a table, under a version. -/
def withTable (s : Store) (version : Int) : Store :=
  ⟨version, some (s.table.getD .empty)⟩

/-- What opening can answer and leave, by the store that was loaded and by the commits that are
refused. -/
inductive Opening (s₀ : Store) (w : World) (refuses : Store → Bool) (behind : Store → World) :
    Except ArchiveError Store → World → Prop where
  | tooNew (hnew : currentVersion < s₀.version) :
      Opening s₀ w refuses behind (.error (.unsupportedVersion s₀.version)) w
  | current (hversion : s₀.version = currentVersion) : Opening s₀ w refuses behind (.ok s₀) w
  | noTable (hold : s₀.version < currentVersion) (hzero : s₀.version ≠ 0)
      (hnone : s₀.table = none) : Opening s₀ w refuses behind (.error .missingTable) w
  | tableRefused (hzero : s₀.version = 0) (htable : refuses (s₀.withTable 1) = true) :
      Opening s₀ w refuses behind (.error .refused) w
  /-- The table was committed, but the index is not. -/
  | halfWay (hzero : s₀.version = 0) (htable : refuses (s₀.withTable 1) = false)
      (hindex : refuses (s₀.withTable 2) = true) :
      Opening s₀ w refuses behind (.error .refused) (behind (s₀.withTable 1))
  | indexRefused (hold : s₀.version < currentVersion) (hzero : s₀.version ≠ 0)
      (hsome : s₀.table ≠ none) (hindex : refuses (s₀.withTable 2) = true) :
      Opening s₀ w refuses behind (.error .refused) w
  | migrated (hold : s₀.version < currentVersion)
      (htable : s₀.version = 0 ∧ refuses (s₀.withTable 1) = false ∨
        s₀.version ≠ 0 ∧ s₀.table ≠ none)
      (hindex : refuses (s₀.withTable 2) = false) :
      Opening s₀ w refuses behind (.ok (s₀.withTable 2)) (behind (s₀.withTable 2))

section Opening

variable {refuses : Store → Bool} {behind : Store → World}

theorem opening_migrate (h : Commits path w refuses behind) (hle : s₀.version ≤ currentVersion) :
    let r := StateT.run (migrate path s₀ migration : StateM World _) w
    Opening s₀ w refuses behind r.1 r.2 := by
  intro r
  by_cases hzero : s₀.version = 0
  · have hold : s₀.version < currentVersion := by
      rw [hzero]
      decide
    have hfirst : r = match StateT.run ((s₀.withTable 1).save path : StateM World _) w with
        | (.ok (), w') => StateT.run (migrate path (s₀.withTable 1) (migration.drop 1)) w'
        | (.error e, w') => (.error e, w') :=
      migrate_take (decide_eq_true hzero) rfl
    rw [h.first] at hfirst
    cases htable : refuses (s₀.withTable 1) with
    | true =>
      rw [hfirst, htable]
      exact .tableRefused hzero htable
    | false =>
      have hsecond : r = match StateT.run ((s₀.withTable 2).save path : StateM World _)
            (behind (s₀.withTable 1)) with
          | (.ok (), w') => (.ok (s₀.withTable 2), w')
          | (.error e, w') => (.error e, w') := by
        rw [hfirst, htable]
        exact migrate_take rfl rfl
      rw [h.later] at hsecond
      cases hindex : refuses (s₀.withTable 2) with
      | true =>
        rw [hsecond, hindex]
        exact .halfWay hzero htable hindex
      | false =>
        rw [hsecond, hindex]
        exact .migrated hold (.inl ⟨hzero, htable⟩) hindex
  have hskip : r = StateT.run (migrate path s₀ (migration.drop 1)) w :=
    congrArg (StateT.run · w) (migrate_skip (decide_eq_false hzero))
  by_cases hold : s₀.version < currentVersion
  · cases hsome : s₀.table with
    | none =>
      have happly : s₀.createIndex = .error .missingTable := by rw [createIndex, hsome]
      have hfail : r = (.error .missingTable, w) :=
        hskip.trans (migrate_fail (decide_eq_true hold) happly)
      rw [hfail]
      exact .noTable hold hzero hsome
    | some t =>
      have hsome' : s₀.table ≠ none := by simp [hsome]
      have happly : s₀.createIndex = .ok (s₀.withTable 2) := by
        rw [createIndex, withTable, hsome]
        rfl
      have hsecond : r = match StateT.run ((s₀.withTable 2).save path : StateM World _) w with
          | (.ok (), w') => (.ok (s₀.withTable 2), w')
          | (.error e, w') => (.error e, w') :=
        hskip.trans (migrate_take (decide_eq_true hold) happly)
      rw [h.first] at hsecond
      cases hindex : refuses (s₀.withTable 2) with
      | true =>
        rw [hsecond, hindex]
        exact .indexRefused hold hzero hsome' hindex
      | false =>
        rw [hsecond, hindex]
        exact .migrated hold (.inr ⟨hzero, hsome'⟩) hindex
  · have hdone : r = (.ok s₀, w) :=
      hskip.trans (congrArg (StateT.run · w) (migrate_skip (decide_eq_false hold)))
    rw [hdone]
    exact .current (Int.le_antisymm hle (Int.not_lt.1 hold))

/-- All that opening can come to, once the store is known. -/
theorem opening_openFile {w₁ : World}
    (hload : StateT.run (load path : StateM World _) w = (.ok content, w₁))
    (hdecode : decode content = .ok s₀) (h : Commits path w₁ refuses behind) :
    let r := StateT.run (openFile path : StateM World _) w
    Opening s₀ w₁ refuses behind r.1 r.2 := by
  intro r
  have hr : r = StateT.run (if currentVersion < s₀.version
      then return .error (.unsupportedVersion s₀.version)
      else migrate path s₀ migration : StateM World _) w₁ := by
    simp only [r]
    rw [openFile, bind_run, hload]
    simp only [hdecode]
  by_cases hnew : currentVersion < s₀.version
  · rw [hr, if_pos hnew]
    exact .tooNew hnew
  · rw [hr, if_neg hnew]
    exact opening_migrate h (Int.not_lt.1 hnew)

/-- What was opened had been loaded and read. -/
theorem openFile_eq_ok (h : StateT.run (openFile path : StateM World _) w = (.ok s, w')) :
    ∃ content s₀ w₁, StateT.run (load path : StateM World _) w = (.ok content, w₁) ∧
      decode content = .ok s₀ := by
  rcases hload : StateT.run (load path : StateM World _) w with ⟨e | content, w₁⟩
  · rw [openFile, bind_run, hload] at h
    cases h
  cases hdecode : decode content with
  | error e =>
    rw [openFile, bind_run, hload] at h
    simp only [hdecode] at h
    cases h
  | ok s₀ => exact ⟨content, s₀, w₁, rfl, hdecode⟩

/-- A store in the current version is opened without a commit. -/
theorem Opening.of_current {answer : Except ArchiveError Store}
    (h : Opening s w refuses behind answer w') (hversion : s.version = currentVersion) :
    answer = .ok s ∧ w' = w := by
  have hzero : s.version ≠ 0 := by
    rw [hversion]
    decide
  cases h with
  | current => exact ⟨rfl, rfl⟩
  | tooNew hnew => exact absurd hversion (Int.ne_of_gt hnew)
  | tableRefused hzero' | halfWay hzero' => exact absurd hzero' hzero
  | noTable hold | indexRefused hold | migrated hold =>
    exact absurd hversion (Int.ne_of_lt hold)

/-- A store without anything in it becomes one without cards, if no commit is refused. -/
theorem Opening.of_fresh {answer : Except ArchiveError Store}
    (h : Opening fresh w refuses behind answer w') (htakes : ∀ s, refuses s = false) :
    answer = .ok (ofCards []) ∧ w' = behind (ofCards []) := by
  cases h with
  | migrated => exact ⟨rfl, rfl⟩
  | tooNew hnew => exact absurd hnew (by decide)
  | current hversion => exact absurd hversion (by decide)
  | noTable _ hzero | indexRefused _ hzero => exact absurd rfl hzero
  | tableRefused _ hrefused => simp [htakes] at hrefused
  | halfWay _ _ hrefused => simp [htakes] at hrefused

end Opening

/-- All that opening can come to, where there is a file or can be one. -/
theorem opening_place (hopen : w.tree.openPlace w.directory path = .ok place)
    (hentry : w.tree.entry place = none ∧ content = [] ∨
      w.tree.entry place = some (.file content))
    (hdecode : decode content = .ok s₀) :
    let r := StateT.run (openFile path : StateM World _) w
    Opening s₀ (w.withFile place content) (fun s => w.refuses place s.encode)
      (fun s => w.withFile place s.encode) r.1 r.2 := by
  have hcommits := commits_file (World.fileAt_withFile hopen content)
  have hopening := opening_openFile (load_place hopen hentry) hdecode hcommits
  simp only [World.withFile_withFile] at hopening
  exact hopening

/-- A store in the current version that is in a file is opened as it is. -/
theorem openFile_current (h : w.tree.FileAt w.directory path place content)
    (hdecode : decode content = .ok s) (hversion : s.version = currentVersion) :
    StateT.run (openFile path : StateM World _) w = (.ok s, w) := by
  have hopening := opening_openFile (load_file h) hdecode (commits_file h)
  exact Prod.ext (hopening.of_current hversion).1 (hopening.of_current hversion).2

/-- On a disk that takes everything, a file that is missing or empty becomes an archive without
cards. -/
theorem openFile_fresh (hopen : w.tree.openPlace w.directory path = .ok place)
    (hentry : w.tree.entry place = none ∨ w.tree.entry place = some (.file []))
    (htakes : ∀ bytes, w.refuses place bytes = false) :
    StateT.run (openFile path : StateM World _) w =
      (.ok (ofCards []), w.withFile place (ofCards []).encode) := by
  have hopening := opening_place hopen (hentry.imp_left fun h => ⟨h, rfl⟩) rfl
  obtain ⟨hanswer, hworld⟩ := hopening.of_fresh fun s => htakes s.encode
  exact Prod.ext hanswer hworld

end Store

end RitualGate
