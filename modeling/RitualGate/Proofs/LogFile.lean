import RitualGate.Proofs.FileTree
import RitualGate.Proofs.Log
import RitualGate.Proofs.Run

/-!
# Logs on a disk

`LogAt` says that a path leads to a log with some content, which can be opened without making
anything. Opening a log makes what is missing and changes nothing else (`openSink_eq_ok`), so a log
that was opened can be opened again (`LogAt.resume_eq_ok_iff`). A record that is added stands at the
end of the log (`LogAt.append`), or, if the disk has a fault, the log is as it was and the trail has
lost it (`LogAt.append_fault`).
-/

namespace RitualGate

open Session (bind_run)

/-- One record to add: the statement, how it ended and what there is to say about it. -/
structure AuditEntry where
  statement : Statement
  outcome : Outcome
  detail : OutcomeDetail

/-- Every directory that opening a log makes is there. -/
def Settled (w : World) (path : Path) : Prop :=
  ∀ parent ∈ path.parent?, parent.bytes ≠ [] →
    w.tree.kind? w.directory parent = some .directory

/-- A path leads to a log that can be opened as it is. -/
structure LogAt (w : World) (path : Path) (content : Bytes) : Prop where
  file : ∃ place, w.tree.FileAt w.directory path place content
  settled : Settled w path

namespace Trail

variable {w w' : World} {path : Path} {content : Bytes} {t : Trail}

/-! ## Opening -/

theorem makeDirs_run {p : Path} {t' : FileTree} {r : Except IoError Unit}
    (h : w.tree.makeDirs w.directory p = (t', r)) :
    StateT.run (Host.makeDirs p : StateM World _) w = (r, { w with tree := t' }) := by
  have hrun : StateT.run (Host.makeDirs p : StateM World _) w =
      ((w.tree.makeDirs w.directory p).2,
        { w with tree := (w.tree.makeDirs w.directory p).1 }) := rfl
  rw [hrun, h]

theorem touch_run_eq_ok (h : StateT.run (Host.touch path : StateM World _) w = (.ok (), w')) :
    ∃ t', w' = { w with tree := t' } ∧ FileTree.Keeps w.tree t' ∧
      ∃ place, t'.openPlace w.directory path = .ok place := by
  obtain ⟨t', htouch, rfl⟩ := World.change_eq_ok_iff.1 h
  obtain ⟨hkeeps, hopen⟩ := FileTree.touch_eq_ok htouch
  exact ⟨t', rfl, hkeeps, hopen⟩

/-- Opening makes what is missing, and changes nothing that was there. -/
theorem openSink_eq_ok (h : StateT.run (openSink path : StateM World _) w = (.ok (), w')) :
    Settled w' path ∧ ∃ t', w' = { w with tree := t' } ∧ FileTree.Keeps w.tree t' ∧
      ∃ place, t'.openPlace w.directory path = .ok place := by
  unfold openSink at h
  split at h
  · rename_i parent hparent
    split at h
    · rename_i hbytes
      refine ⟨?_, touch_run_eq_ok h⟩
      intro q hq hne
      rw [hparent, Option.mem_some_iff] at hq
      exact absurd (hq ▸ hbytes) hne
    · rename_i hbytes
      rw [bind_run] at h
      cases hmake : w.tree.makeDirs w.directory parent with
      | mk t₁ r₁ =>
        rw [makeDirs_run hmake] at h
        cases r₁ with
        | error e => cases h
        | ok u =>
          -- making the file keeps the directory that was made for it
          obtain ⟨t', rfl, hkeeps, hopen⟩ := touch_run_eq_ok h
          refine ⟨?_, t', rfl, (FileTree.keeps_makeDirs hmake).trans hkeeps, hopen⟩
          intro q hq hne
          rw [hparent, Option.mem_some_iff] at hq
          subst hq
          exact FileTree.directory_of_keeps hkeeps.directories
            (FileTree.kind?_of_makeDirs hbytes hmake)
  · rename_i hparent
    refine ⟨?_, touch_run_eq_ok h⟩
    intro q hq
    rw [hparent] at hq
    cases hq

/-! ## Reading -/

/-- What is read from a log is what its content says. -/
def readResult (path : Path) : Except LogFault (List AuditRecord) →
    Except InitError (List AuditRecord)
  | .ok rs => .ok rs
  | .error .notText => .error (.io path .notText)
  | .error (.malformed line) => .error (.malformedLog line)

theorem readLog_run {content : Bytes} (h : w.tree.read w.directory path = .ok content) :
    StateT.run (readLog path : StateM World _) w = (readResult path (Log.parse content), w) := by
  have hread : StateT.run (Host.read path : StateM World _) w = (.ok content, w) := by
    show (w.tree.read w.directory path, w) = _
    rw [h]
  rw [readLog, bind_run, hread]
  cases hparse : Log.parse content with
  | ok rs =>
    simp only [hparse]
    rfl
  | error e => cases e <;> simp only [hparse] <;> rfl

theorem readResult_eq_ok_iff {r : Except LogFault (List AuditRecord)} {rs : List AuditRecord} :
    readResult path r = .ok rs ↔ r = .ok rs := by
  rcases r with (_ | line) | rs' <;> simp [readResult]

/-- What is known about a log when its chain is checked. -/
def existing (w : World) (path : Path) : Except InitError (List AuditRecord) :=
  if w.tree.kind? w.directory path = some .file then
    (StateT.run (readLog path : StateM World _) w).1
  else .ok []

theorem readLog_world (w : World) (path : Path) :
    (StateT.run (readLog path : StateM World _) w).2 = w := by
  cases hread : w.tree.read w.directory path with
  | ok content => rw [readLog_run hread]
  | error e =>
    have hrun : StateT.run (Host.read path : StateM World _) w = (.error e, w) := by
      show (w.tree.read w.directory path, w) = _
      rw [hread]
    rw [readLog, bind_run, hrun]
    rfl

/-- What is left to do when that is known. -/
def resumeFrom (path : Path) :
    Except InitError (List AuditRecord) → StateM World (Except InitError Trail)
  | .error e => return .error e
  | .ok records =>
    match Chain.verify records with
    | .error e => return .error (.chainCorrupted e)
    | .ok () => do
      match ← openSink path with
      | .error e => return .error (.io path e)
      | .ok () => return .ok ⟨records, some path, none⟩

theorem resume_run_eq (w : World) (path : Path) : StateT.run (resume path : StateM World _) w =
    StateT.run (resumeFrom path (existing w path)) w := by
  have hisFile : StateT.run (Host.isFile path : StateM World _) w =
      (decide (w.tree.kind? w.directory path = some .file), w) := rfl
  rw [resume, bind_run, hisFile, existing]
  by_cases hkind : w.tree.kind? w.directory path = some .file
  · rw [if_pos hkind]
    simp only [hkind, decide_true, if_true]
    rw [bind_run, readLog_world]
    rfl
  · rw [if_neg hkind]
    simp only [hkind, decide_false, Bool.false_eq_true, if_false]
    rfl

/-- Going on with a log succeeds if its records can be read and are a chain, and if it can be
opened. -/
theorem resume_eq_ok_iff : StateT.run (resume path : StateM World _) w = (.ok t, w') ↔
    ∃ rs, existing w path = .ok rs ∧ Chain.verify rs = .ok () ∧
      StateT.run (openSink path : StateM World _) w = (.ok (), w') ∧
      t = ⟨rs, some path, none⟩ := by
  rw [resume_run_eq]
  cases existing w path with
  | error e =>
    constructor
    · intro h
      cases h
    · rintro ⟨rs, hrs, -⟩
      cases hrs
  | ok rs =>
    cases hverify : Chain.verify rs with
    | error e =>
      simp only [resumeFrom, hverify]
      constructor
      · intro h
        cases h
      · rintro ⟨rs', hrs, hchain, -⟩
        cases hrs
        rw [hverify] at hchain
        cases hchain
    | ok u =>
      simp only [resumeFrom, hverify]
      rw [bind_run]
      rcases hopen : StateT.run (openSink path : StateM World _) w with ⟨_ | u', w₁⟩
      · constructor
        · intro h
          cases h
        · rintro ⟨_, -, -, hok, -⟩
          cases hok
      · constructor
        · intro h
          cases h
          exact ⟨rs, rfl, hverify, rfl, rfl⟩
        · rintro ⟨_, hrs, -, hok, rfl⟩
          cases hrs
          cases hok
          rfl

/-! ## Adding records -/

theorem push_ok (t : Trail) (r : AuditRecord) :
    t.push r (.ok ()) = { t with records := t.records ++ [r] } := by
  unfold push
  split
  · rename_i heq
    cases heq
  · rfl

theorem push_error (ht : t.sink = some path) (r : AuditRecord) (cause : IoError) :
    t.push r (.error cause) = ⟨t.records ++ [r], none, some ⟨r.sequence, path, cause⟩⟩ := by
  simp only [push, ht]

theorem append_run_detached (ht : t.sink = none) (e : AuditEntry) (w : World) :
    StateT.run (t.append e.statement e.outcome e.detail : StateM World _) w =
      ((t.next e.statement e.outcome e.detail (w.clock w.ticks),
        { t with records :=
            t.records ++ [t.next e.statement e.outcome e.detail (w.clock w.ticks)] }),
        { w with ticks := w.ticks + 1 }) := by
  rw [append_run_eq]
  simp only [writeOut_run_detached ht, push_ok]

theorem writeRecord_run (w : World) {r : AuditRecord} {tree : FileTree}
    {written : Except IoError Unit}
    (happend : w.tree.append w.directory path (Text.encode r.line) (w.faults w.appends) =
      (tree, written)) :
    StateT.run (writeRecord path r : StateM World _) w =
      (written, { w with tree := tree, appends := w.appends + 1 }) := by
  have hrun : StateT.run (writeRecord path r : StateM World _) w =
      ((w.tree.append w.directory path (Text.encode r.line) (w.faults w.appends)).2,
        { w with tree := (w.tree.append w.directory path (Text.encode r.line)
                   (w.faults w.appends)).1
                 appends := w.appends + 1 }) := rfl
  rw [hrun, happend]

theorem append_run_attached (ht : t.sink = some path) (e : AuditEntry) (w : World)
    {r : AuditRecord} (hr : r = t.next e.statement e.outcome e.detail (w.clock w.ticks))
    {tree : FileTree} {written : Except IoError Unit}
    (happend : w.tree.append w.directory path (Text.encode r.line) (w.faults w.appends) =
      (tree, written)) :
    StateT.run (t.append e.statement e.outcome e.detail : StateM World _) w =
      ((r, t.push r written),
        { w with tree := tree, ticks := w.ticks + 1, appends := w.appends + 1 }) := by
  rw [append_run_eq, ← hr]
  simp only [writeOut, ht, writeRecord_run { w with ticks := w.ticks + 1 } happend]

end Trail

namespace LogAt

variable {w w' : World} {path : Path} {content : Bytes} {t : Trail}

theorem kind? (h : LogAt w path content) : w.tree.kind? w.directory path = some .file :=
  h.file.elim fun _ hfile => hfile.kind?

theorem read (h : LogAt w path content) : w.tree.read w.directory path = .ok content :=
  h.file.elim fun _ hfile => hfile.read

/-- A log that is there is opened without a change. -/
theorem openSink (h : LogAt w path content) :
    StateT.run (Trail.openSink path : StateM World _) w = (.ok (), w) := by
  obtain ⟨⟨place, hfile⟩, hsettled⟩ := h
  have htouch := World.touch_file hfile
  unfold Trail.openSink
  split
  · rename_i parent hparent
    split
    · exact htouch
    · rename_i hbytes
      have hmake := FileTree.makeDirs_of_directory (hsettled parent hparent hbytes)
      rw [bind_run, Trail.makeDirs_run hmake]
      exact htouch
  · exact htouch

/-- A log that was opened is there. -/
theorem of_openSink {place : Place}
    (hlookup : w.tree.lookup w.directory path = .ok (place, .file content))
    (h : StateT.run (Trail.openSink path : StateM World _) w = (.ok (), w')) :
    LogAt w' path content := by
  obtain ⟨hsettled, t', rfl, hkeeps, q, hopen⟩ := Trail.openSink_eq_ok h
  exact ⟨⟨place, FileTree.fileAt_of_lookup (FileTree.lookup_of_keeps hkeeps hlookup) hopen⟩,
    hsettled⟩

theorem existing (h : LogAt w path content) :
    Trail.existing w path = Trail.readResult path (Log.parse content) := by
  rw [Trail.existing, if_pos h.kind?, Trail.readLog_run h.read]

/-- A log that is there and holds a chain can be gone on with, as often as one likes. -/
theorem resume_eq_ok_iff (h : LogAt w path content) {rs : List AuditRecord} :
    StateT.run (Trail.resume path : StateM World _) w = (.ok ⟨rs, some path, none⟩, w) ↔
      Log.parse content = .ok rs ∧ Chain.verify rs = .ok () := by
  rw [Trail.resume_eq_ok_iff, h.existing]
  constructor
  · rintro ⟨rs', hread, hverify, -, heq⟩
    cases heq
    exact ⟨Trail.readResult_eq_ok_iff.1 hread, hverify⟩
  · rintro ⟨hparse, hverify⟩
    exact ⟨rs, Trail.readResult_eq_ok_iff.2 hparse, hverify, h.openSink, rfl⟩

/-- A log with a line that is no record can be neither read nor gone on with. -/
theorem malformed (h : LogAt w path content) {line : Nat}
    (hparse : Log.parse content = .error (.malformed line)) :
    (StateT.run (Trail.readLog path : StateM World _) w).1 = .error (.malformedLog line) ∧
      (StateT.run (Trail.resume path : StateM World _) w).1 = .error (.malformedLog line) := by
  constructor
  · rw [Trail.readLog_run h.read, hparse]
    rfl
  · rw [Trail.resume_run_eq, h.existing, hparse]
    rfl

/-- A log with a chain of records can be read and gone on with. -/
theorem readable (h : LogAt w path content) {rs : List AuditRecord}
    (hparse : Log.parse content = .ok rs) (hchain : Chain.verify rs = .ok ()) :
    (StateT.run (Trail.readLog path : StateM World _) w).1 = .ok rs ∧
      (StateT.run (Trail.resume path : StateM World _) w).1 = .ok ⟨rs, some path, none⟩ := by
  constructor
  · rw [Trail.readLog_run h.read, hparse]
    rfl
  · rw [h.resume_eq_ok_iff.2 ⟨hparse, hchain⟩]

/-! ## Adding records -/

/-- A record that the disk takes stands at the end of the log. -/
theorem writeRecord (h : LogAt w path content) (hdisk : w.faults w.appends = none)
    (r : AuditRecord) : ∃ w', StateT.run (Trail.writeRecord path r : StateM World _) w =
        (.ok (), w') ∧ LogAt w' path (content ++ Text.encode r.line) ∧
      w'.appends = w.appends + 1 ∧ w'.faults = w.faults := by
  obtain ⟨⟨place, hfile⟩, hsettled⟩ := h
  obtain ⟨tree, happend, hfile', hkeeps⟩ := hfile.append (Text.encode r.line)
  rw [← hdisk] at happend
  refine ⟨_, Trail.writeRecord_run w happend, ⟨⟨place, hfile'⟩, ?_⟩, rfl, rfl⟩
  exact fun parent hparent hbytes =>
    FileTree.directory_of_keeps hkeeps (hsettled parent hparent hbytes)

theorem append (h : LogAt w path content) (ht : t.sink = some path)
    (hdisk : w.faults w.appends = none) (e : AuditEntry) {r : AuditRecord}
    (hr : r = t.next e.statement e.outcome e.detail (w.clock w.ticks)) :
    ∃ w', StateT.run (t.append e.statement e.outcome e.detail : StateM World _) w =
        ((r, { t with records := t.records ++ [r] }), w') ∧
      LogAt w' path (content ++ Text.encode r.line) ∧
      w'.appends = w.appends + 1 ∧ w'.faults = w.faults := by
  have hlater : LogAt { w with ticks := w.ticks + 1 } path content := ⟨h.file, h.settled⟩
  obtain ⟨w', hwrite, hlog⟩ := hlater.writeRecord hdisk r
  refine ⟨w', ?_, hlog⟩
  rw [Trail.append_run_eq, ← hr]
  simp only [Trail.writeOut, ht, hwrite, Trail.push_ok]

/-- A record that the disk does not take leaves the log as it was, and detaches it. -/
theorem append_fault (h : LogAt w path content) (ht : t.sink = some path) {n : Nat}
    (hdisk : w.faults w.appends = some n) (e : AuditEntry) {r : AuditRecord}
    (hr : r = t.next e.statement e.outcome e.detail (w.clock w.ticks)) :
    StateT.run (t.append e.statement e.outcome e.detail : StateM World _) w =
      ((r, ⟨t.records ++ [r], none, some ⟨r.sequence, path, .noSpace⟩⟩),
        { w with ticks := w.ticks + 1, appends := w.appends + 1 }) := by
  obtain ⟨⟨place, hfile⟩, -⟩ := h
  have happend := hfile.append_fault (Text.encode r.line) n
  rw [← hdisk] at happend
  rw [Trail.append_run_attached ht e w hr happend, Trail.push_error ht]

end LogAt

end RitualGate
