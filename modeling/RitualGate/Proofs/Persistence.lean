import RitualGate.Proofs.LogFile

/-!
# A log holds the beginning of its chain

A log is used by one trail at a time: a trail is opened on it, adds records and is dropped, again and
again (`LogAction`), on a disk that may cut any write short and then fail. `log_persists` says what
holds at every point of such a use of a log that was missing or empty at first: the log is a chain
and can be opened; the trail on it has the same records until a write fails, and from then on the log
keeps what it had while the trail goes on without it.

A step of a use is one action. `persisted_step` says that each keeps the invariant `Persisted`, in
which the trail is `Alive` in one of two ways: it writes to the log, or a write has failed.
-/

namespace RitualGate

/-- What can be done with a log. -/
inductive LogAction where
  | resume
  | append (e : AuditEntry)
  | drop

/-- A log in use. -/
structure LogUse where
  /-- The trail on the log, if there is one. -/
  trail : Option Trail
  /-- How many writes there had been when the trail was opened. -/
  opened : Nat
  world : World

namespace LogUse

/-- No trail is on the log yet. -/
def start (w : World) : LogUse := ⟨none, w.appends, w⟩

/-- Takes one action. A new trail takes the place of the one before it. -/
def step (path : Path) (u : LogUse) : LogAction → LogUse
  | .resume =>
    let r := StateT.run (Trail.resume path : StateM World _) u.world
    ⟨r.1.toOption, r.2.appends, r.2⟩
  | .append e =>
    match u.trail with
    | none => u
    | some t =>
      let r := StateT.run (t.append e.statement e.outcome e.detail : StateM World _) u.world
      { u with trail := some r.1.2, world := r.2 }
  | .drop => { u with trail := none }

/-- Takes actions one after the other. -/
def run (path : Path) (u : LogUse) (as : List LogAction) : LogUse :=
  as.foldl (step path) u

/-- One of the writes of the trail has failed. -/
def WriteFailed (u : LogUse) : Prop :=
  ∃ i, u.opened ≤ i ∧ i < u.world.appends ∧ (u.world.faults i).isSome

/-- What the trail on a log has to do with the records in the log. -/
structure Mirrors (path : Path) (rs : List AuditRecord) (u : LogUse) (t : Trail) : Prop where
  beginning : rs <+: t.records
  whole : t.sink.isSome → rs = t.records
  failure_iff : t.failure.isSome ↔ u.WriteFailed
  /-- A failure names the record that is the first one missing in the log. -/
  failure : ∀ f, t.failure = some f → f.path = path ∧
    ∃ k < t.records.length, f.sequence = Text.word k ∧ rs = t.records.take k
  /-- A failure lasts as long as the trail, and so does what the log holds. -/
  lasting : t.failure.isSome → ∀ es : List AuditEntry,
    ∃ t', (u.run path (es.map .append)).trail = some t' ∧ t'.failure = t.failure ∧
      t.records <+: t'.records ∧ (u.run path (es.map .append)).world.tree = u.world.tree

/-- A log holds some records. -/
structure Holds (path : Path) (u : LogUse) (rs : List AuditRecord) : Prop where
  chain : Chain.verify rs = .ok ()
  resumes : (StateT.run (Trail.resume path : StateM World _) u.world).1 = .ok ⟨rs, some path, none⟩
  file : u.world.tree.kind? u.world.directory path = some .file →
    u.world.tree.read u.world.directory path = .ok (Log.encode rs) ∧
      (StateT.run (Trail.readLog path : StateM World _) u.world).1 = .ok rs
  trail : ∀ t, u.trail = some t → Mirrors path rs u t

end LogUse

/-- A log that is missing or empty: opening it finds or makes an empty file. -/
def FreshLog (w : World) (path : Path) : Prop :=
  let (opened, w') := StateT.run (Trail.openSink path : StateM World _) w
  opened = .ok () ∧ w'.tree.kind? w'.directory path = some .file ∧
    w'.tree.read w'.directory path = .ok []

namespace FreshLog

variable {w : World} {path : Path}

theorem opens (h : FreshLog w path) :
    ∃ w', StateT.run (Trail.openSink path : StateM World _) w = (.ok (), w') ∧
      w'.tree.kind? w'.directory path = some .file ∧ w'.tree.read w'.directory path = .ok [] := by
  obtain ⟨hopen, hfile⟩ := h
  exact ⟨_, Prod.ext hopen rfl, hfile⟩

theorem read (h : FreshLog w path) (hkind : w.tree.kind? w.directory path = some .file) :
    w.tree.read w.directory path = .ok [] := by
  obtain ⟨w', hopen, -, hempty⟩ := h.opens
  obtain ⟨place, content, hlookup⟩ := FileTree.lookup_of_file hkind
  have hcontent := (LogAt.of_openSink hlookup hopen).read
  rw [hempty] at hcontent
  rw [hcontent]
  exact FileTree.read_of_lookup hlookup

/-- Opening a fresh log makes an empty log. -/
theorem logAt (h : FreshLog w path) :
    ∃ tree, StateT.run (Trail.openSink path : StateM World _) w =
      (.ok (), { w with tree := tree }) ∧ LogAt { w with tree := tree } path [] := by
  obtain ⟨w', hopen, hkind, hempty⟩ := h.opens
  obtain ⟨hsettled, tree, rfl, -, q, hplace⟩ := Trail.openSink_eq_ok hopen
  obtain ⟨place, hlookup⟩ := FileTree.lookup_of_kind? hkind hempty
  exact ⟨tree, hopen, ⟨place, FileTree.fileAt_of_lookup hlookup hplace⟩, hsettled⟩

/-- The first trail on a log begins a chain. -/
theorem resume (h : FreshLog w path) :
    ∃ w', StateT.run (Trail.resume path : StateM World _) w =
      (.ok ⟨[], some path, none⟩, w') ∧ LogAt w' path [] := by
  have hexisting : Trail.existing w path = .ok [] := by
    rw [Trail.existing]
    by_cases hkind : w.tree.kind? w.directory path = some .file
    · rw [if_pos hkind, Trail.readLog_run (h.read hkind)]
      rfl
    · rw [if_neg hkind]
  obtain ⟨tree, hopen, hlog⟩ := h.logAt
  exact ⟨_, Trail.resume_eq_ok_iff.2 ⟨[], hexisting, rfl, hopen, rfl⟩, hlog⟩

end FreshLog

namespace LogUse

variable {path : Path} {w : World} {u : LogUse} {rs : List AuditRecord} {t : Trail}

/-! ## Steps -/

/-- How a trail is on a log that holds some records: it has written them all, or it has gone on
without the log since a write failed. -/
inductive Alive (path : Path) (rs : List AuditRecord) (u : LogUse) : Trail → Prop
  | attached (hle : u.opened ≤ u.world.appends)
      (hdisk : ∀ i, u.opened ≤ i → i < u.world.appends → u.world.faults i = none) :
      Alive path rs u ⟨rs, some path, none⟩
  | detached {records : List AuditRecord} {f : WriteFailure} (hbeginning : rs <+: records)
      (hlt : rs.length < records.length) (hfailed : u.WriteFailed)
      (hsequence : f.sequence = Text.word rs.length) (hpath : f.path = path) :
      Alive path rs u ⟨records, none, some f⟩

/-- The invariant of a use: the log holds a chain, which the trail on it began with. -/
structure Persisted (path : Path) (rs : List AuditRecord) (u : LogUse) : Prop where
  log : LogAt u.world path (Log.encode rs)
  chain : Chain.verify rs = .ok ()
  alive : ∀ t, u.trail = some t → Alive path rs u t

theorem Persisted.resume_run (h : Persisted path rs u) :
    StateT.run (Trail.resume path : StateM World _) u.world =
      (.ok ⟨rs, some path, none⟩, u.world) :=
  h.log.resume_eq_ok_iff.2 ⟨Log.parse_encode (Chain.sequence_le_of_verifyFrom h.chain), h.chain⟩

/-- A record that the disk takes is the next one of the trail and the next one in the log. -/
theorem step_attached {content : Bytes} (hlog : LogAt w path content)
    (hdisk : w.faults w.appends = none) (rs : List AuditRecord) (opened : Nat) (e : AuditEntry) :
    ∃ r w', step path ⟨some ⟨rs, some path, none⟩, opened, w⟩ (.append e) =
        ⟨some ⟨rs ++ [r], some path, none⟩, opened, w'⟩ ∧
      Chain.Fits rs.length (Chain.headOf rs) r ∧
      LogAt w' path (content ++ Text.encode r.line) ∧
      w'.appends = w.appends + 1 ∧ w'.faults = w.faults := by
  obtain ⟨w', hrun, hlog', happends, hfaults⟩ :=
    hlog.append (t := ⟨rs, some path, none⟩) rfl hdisk e rfl
  refine ⟨_, w', ?_, Trail.fits_next ⟨rs, some path, none⟩ _ _ _ _, hlog', happends, hfaults⟩
  simp only [step, hrun]

/-- The first record that the disk does not take is in the trail alone. -/
theorem step_fault {content : Bytes} (hlog : LogAt w path content) {n : Nat}
    (hdisk : w.faults w.appends = some n) (rs : List AuditRecord) (opened : Nat) (e : AuditEntry) :
    ∃ r, step path ⟨some ⟨rs, some path, none⟩, opened, w⟩ (.append e) =
      ⟨some ⟨rs ++ [r], none, some ⟨Text.word rs.length, path, .noSpace⟩⟩, opened,
        { w with ticks := w.ticks + 1, appends := w.appends + 1 }⟩ := by
  have hrun := hlog.append_fault (t := ⟨rs, some path, none⟩) rfl hdisk e rfl
  refine ⟨Trail.next ⟨rs, some path, none⟩ e.statement e.outcome e.detail (w.clock w.ticks), ?_⟩
  simp only [step, hrun]
  rfl

/-- So is every later one. -/
theorem step_detached (hsink : t.sink = none) (opened : Nat) (w : World) (e : AuditEntry) :
    ∃ r, step path ⟨some t, opened, w⟩ (.append e) =
      ⟨some { t with records := t.records ++ [r] }, opened, { w with ticks := w.ticks + 1 }⟩ := by
  refine ⟨t.next e.statement e.outcome e.detail (w.clock w.ticks), ?_⟩
  simp only [step, Trail.append_run_detached hsink e w]

theorem persisted_opened (hlog : LogAt w path (Log.encode rs)) (hchain : Chain.verify rs = .ok ()) :
    Persisted path rs ⟨some ⟨rs, some path, none⟩, w.appends, w⟩ := by
  refine ⟨hlog, hchain, fun t ht => ?_⟩
  cases ht
  exact .attached (Nat.le_refl _) fun i hle hlt => absurd hlt (Nat.not_lt.2 hle)

theorem persisted_append (h : Persisted path rs u) (e : AuditEntry) :
    ∃ rs', Persisted path rs' (u.step path (.append e)) := by
  obtain ⟨trail, opened, w⟩ := u
  obtain ⟨hlog, hchain, halive⟩ := h
  cases trail with
  | none => exact ⟨rs, hlog, hchain, nofun⟩
  | some t =>
    cases halive t rfl with
    | attached hle hdisk =>
      simp only at hlog hle hdisk
      cases hfault : w.faults w.appends with
      | none =>
        obtain ⟨r, w', hstep, hfits, hlog', happends, hfaults⟩ :=
          step_attached hlog hfault rs opened e
        have hencode : Log.encode (rs ++ [r]) = Log.encode rs ++ Text.encode r.line := by
          rw [Log.encode_append]
          simp [Log.encode]
        rw [hstep]
        refine ⟨rs ++ [r], hencode ▸ hlog', Chain.verify_concat_iff.2 ⟨hchain, hfits⟩, ?_⟩
        intro t ht
        cases ht
        -- the new write is the only one that has to be looked at
        refine .attached ?_ ?_ <;> simp only [happends, hfaults]
        · omega
        · intro i hi hlt
          by_cases hlast : i = w.appends
          · rw [hlast, hfault]
          · exact hdisk i hi (by omega)
      | some n =>
        obtain ⟨r, hstep⟩ := step_fault hlog hfault rs opened e
        rw [hstep]
        refine ⟨rs, ⟨hlog.file, hlog.settled⟩, hchain, fun t ht => ?_⟩
        cases ht
        -- the write that failed is the last one, and the log is what it was before it
        refine .detached (List.prefix_append _ _) (by simp) ?_ rfl rfl
        exact ⟨w.appends, hle, Nat.lt_succ_self _, by simp only [hfault]; rfl⟩
    | @detached records f hbeginning hlt hfailed hsequence hpath =>
      obtain ⟨r, hstep⟩ := step_detached (t := ⟨records, none, some f⟩) rfl opened w e
      rw [hstep]
      refine ⟨rs, ⟨hlog.file, hlog.settled⟩, hchain, fun t ht => ?_⟩
      cases ht
      exact .detached (hbeginning.trans (List.prefix_append _ _))
        (Nat.lt_of_lt_of_le hlt (by simp)) hfailed hsequence hpath

theorem persisted_step (h : Persisted path rs u) (a : LogAction) :
    ∃ rs', Persisted path rs' (u.step path a) := by
  cases a with
  | resume =>
    refine ⟨rs, ?_⟩
    simp only [step, h.resume_run]
    exact persisted_opened h.log h.chain
  | append e => exact persisted_append h e
  | drop => exact ⟨rs, h.log, h.chain, nofun⟩

theorem persisted_run (h : Persisted path rs u) (as : List LogAction) :
    ∃ rs', Persisted path rs' (u.run path as) := by
  induction as generalizing rs u with
  | nil => exact ⟨rs, h⟩
  | cons a as ih =>
    obtain ⟨rs', h'⟩ := persisted_step h a
    exact ih h'

/-- Until a trail is opened nothing happens, and the first one finds no records. -/
theorem run_start (h : FreshLog w path) (as : List LogAction) :
    (.resume ∉ as ∧ (start w).run path as = start w) ∨
      ∃ rs, Persisted path rs ((start w).run path as) := by
  induction as with
  | nil => exact .inl ⟨List.not_mem_nil, rfl⟩
  | cons a as ih =>
    cases a with
    | resume =>
      obtain ⟨w', hrun, hlog⟩ := h.resume
      have hstep : (start w).step path .resume = ⟨some ⟨[], some path, none⟩, w'.appends, w'⟩ := by
        simp only [step, start, hrun]
        rfl
      right
      rw [run, List.foldl_cons, hstep]
      exact persisted_run (persisted_opened hlog rfl) as
    | append e =>
      refine ih.imp_left fun ⟨hmem, hrun⟩ => ⟨?_, hrun⟩
      simpa using hmem
    | drop =>
      refine ih.imp_left fun ⟨hmem, hrun⟩ => ⟨?_, hrun⟩
      simpa using hmem

/-! ## Trails without their log -/

theorem run_detached (htrail : u.trail = some t) (hsink : t.sink = none) (es : List AuditEntry) :
    ∃ t', (u.run path (es.map .append)).trail = some t' ∧ t'.failure = t.failure ∧
      t.records <+: t'.records ∧ (u.run path (es.map .append)).world.tree = u.world.tree := by
  obtain ⟨trail, opened, w⟩ := u
  cases htrail
  induction es generalizing t w with
  | nil => exact ⟨t, rfl, rfl, List.prefix_refl _, rfl⟩
  | cons e es ih =>
    obtain ⟨r, hstep⟩ := step_detached hsink opened w e
    obtain ⟨t', ht', hfailure, hrecords, htree⟩ :=
      ih (t := { t with records := t.records ++ [r] }) hsink { w with ticks := w.ticks + 1 }
    rw [List.map_cons, run, List.foldl_cons, hstep]
    exact ⟨t', ht', hfailure, (List.prefix_append _ _).trans hrecords, htree⟩

theorem mirrors_of_alive (htrail : u.trail = some t) (h : Alive path rs u t) :
    Mirrors path rs u t := by
  cases h with
  | attached hle hdisk =>
    refine ⟨List.prefix_refl _, fun _ => rfl, ⟨nofun, ?_⟩, nofun, nofun⟩
    rintro ⟨i, hi, hlt, hsome⟩
    rw [hdisk i hi hlt] at hsome
    cases hsome
  | detached hbeginning hlt hfailed hsequence hpath =>
    refine ⟨hbeginning, nofun, ⟨fun _ => hfailed, fun _ => rfl⟩, ?_, ?_⟩
    · intro f hf
      cases hf
      exact ⟨hpath, rs.length, hlt, hsequence, List.prefix_iff_eq_take.1 hbeginning⟩
    · exact fun _ es => run_detached htrail rfl es

theorem holds_of_persisted (h : Persisted path rs u) : Holds path u rs := by
  have hparse := Log.parse_encode (Chain.sequence_le_of_verifyFrom h.chain)
  obtain ⟨hread, hresume⟩ := h.log.readable hparse h.chain
  exact ⟨h.chain, hresume, fun _ => ⟨h.log.read, hread⟩,
    fun t ht => mirrors_of_alive ht (h.alive t ht)⟩

theorem holds_of_fresh (h : FreshLog w path) : Holds path (start w) [] := by
  obtain ⟨w', hrun, -⟩ := h.resume
  refine ⟨rfl, ?_, fun hkind => ⟨h.read hkind, ?_⟩, nofun⟩
  · show (StateT.run (Trail.resume path : StateM World _) w).1 = _
    rw [hrun]
  · show (StateT.run (Trail.readLog path : StateM World _) w).1 = _
    rw [Trail.readLog_run (h.read hkind)]
    rfl

/-- However a log is used, it holds a chain that every trail on it begins with, all of it while the
trail writes to the log. -/
theorem log_persists {w : World} {path : Path} (h : FreshLog w path) (as : List LogAction) :
    ∃ rs, Holds path ((start w).run path as) rs ∧
      (.resume ∈ as → ((start w).run path as).world.tree.kind?
        ((start w).run path as).world.directory path = some .file) := by
  obtain ⟨hmem, hrun⟩ | ⟨rs, hpersisted⟩ := run_start h as
  · rw [hrun]
    exact ⟨[], holds_of_fresh h, fun hmem' => absurd hmem' hmem⟩
  · exact ⟨rs, holds_of_persisted hpersisted, fun _ => hpersisted.log.kind?⟩

/-- The entry of a ritual that failed. -/
def failedRitual : AuditEntry where
  statement :=
    { family := .ritual, verb := .fail, subject := "", intent := none, args := .empty
      anchors := .empty, voice := none, bandwidth := none, cards := [] }
  outcome := .failed
  detail := .empty

/-- A log in a directory that is yet to be made, on a disk that loses the second of three records
half way, and takes what a second trail adds. -/
theorem log_persists_fault :
    let e := failedRitual
    let w : World := ⟨.empty, [], [], fun n => ⟨n⟩, 0, fun n => if n = 1 then some 7 else none, 0,
      fun _ _ => false⟩
    let path : Path := .ofText "logs/audit.jsonl"
    let life : List LogAction := [.resume, .append e, .append e, .append e]
    let next : List LogAction := [.drop, .resume, .append e]
    FreshLog w path ∧
      ((start w).run path life).trail.map (fun t => t.failure.isSome) = some true ∧
      (∃ rs, Holds path ((start w).run path life) rs) ∧
      ∃ rs, Holds path ((start w).run path (life ++ next)) rs := by
  intro e w path life next
  have hfresh : FreshLog w path := ⟨by decide +kernel, by decide +kernel, by decide +kernel⟩
  obtain ⟨rs, hlife, -⟩ := log_persists hfresh life
  obtain ⟨rs', hnext, -⟩ := log_persists hfresh (life ++ next)
  exact ⟨hfresh, by decide +kernel, ⟨rs, hlife⟩, rs', hnext⟩

end LogUse

end RitualGate
