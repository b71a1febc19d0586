import RitualGate.Command.Project
import RitualGate.Proofs.ProgramRun
import RitualGate.Proofs.Reopening

/-!
# The log of a project and the runs of its programs

A run writes its records to the log that the settings of a project lead to, and the information on a
project is about the log of the project itself. What a run does to the files is exact: the log has a
new content, and everything else is as it was (`written_run`). So the project is opened again as it
was (`project_after_run`), and what is reported depends on where its log is: `info_after_run` says
when the records of the run are counted. They are not if the settings lead to another log
(`other_log_unreported`).
-/

namespace RitualGate

open Session (bind_run LineRun)
open FileTree (placeOf)

/-! ## What a run writes -/

theorem Trail.writeRecord_eq_ok {w : World} {path : Path} {place : Place} {content : Bytes}
    {r : AuditRecord} (hfile : w.tree.FileAt w.directory path place content)
    (hok : (StateT.run (writeRecord path r : StateM World _) w).1 = .ok ()) :
    (StateT.run (writeRecord path r : StateM World _) w).2 =
      { w with tree := w.tree.put place (.file (content ++ Text.encode r.line))
               appends := w.appends + 1 } := by
  cases hfault : w.faults w.appends with
  | none =>
    have happend : w.tree.append w.directory path (Text.encode r.line) (w.faults w.appends) =
        (w.tree.put place (.file (content ++ Text.encode r.line)), .ok ()) := by
      simp only [FileTree.append, hfile.openPlace, hfile.entry, hfault, FileTree.appended, if_true]
    rw [writeRecord_run w happend]
  | some n =>
    have happend := hfile.append_fault (Text.encode r.line) n
    rw [← hfault] at happend
    rw [writeRecord_run w happend] at hok
    cases hok

namespace Session

variable {k : Collaborators} {s s' : Session} {w w' : World} {st : Statement} {x : Execution}

/-- Processing a statement changes the world as writing its record does. -/
theorem process_world (ho : s.phase ≠ .closed)
    (h : StateT.run (s.process k st : StateM World _) w = ((s', .ok x), w')) :
    w' = (StateT.run (s.trail.writeOut x.record) { w with ticks := w.ticks + 1 }).2 := by
  set e := { s with phase := .processing }.evaluate k st with he
  have htrail : e.session.trail = s.trail := (evaluate_kept _ k st).trail
  simp only [process, ho, ↓reduceIte, bind_run, ← he, Trail.append_run_eq] at h
  cases h
  rw [← htrail]
  rfl

/-- The records that lines add stand at the end of the log, and nothing else changes. -/
theorem written_run {path : Path} {place : Place} {content : Bytes} {ls : List String} {r : Reached}
    (h : LineRun k s w ls r) (hidle : s.phase = .idle) (hsink : s.trail.sink = some path)
    (hfailure : r.session.trail.failure = none)
    (hfile : w.tree.FileAt w.directory path place content) :
    ∃ rs, r.session.trail.records = s.trail.records ++ rs ∧ r.world.directory = w.directory ∧
      r.world.tree = w.tree.put place (.file (content ++ Log.encode rs)) := by
  induction h generalizing content with
  | nil s w =>
    refine ⟨[], (List.append_nil _).symm, rfl, ?_⟩
    rw [Log.encode, List.flatMap_nil, List.append_nil, FileTree.put_self hfile.entry]
  | @cons s s' w w' line ls answer r hrun hstep hrest ih =>
    have hidle' := hstep.idle hidle
    cases hstep with
    | remark => exact ih hidle hsink hfailure hfile
    | unread => exact ih hidle hsink hfailure hfile
    | @executed st x _ _ hparse hprocess _ _ htrail =>
      have hworld := process_world (by simp [hidle]) hprocess
      obtain ⟨hnone, -⟩ := (failure_run hrest).1 hfailure
      rw [htrail, Trail.failure_push_writeOut] at hnone
      obtain ⟨-, hwritten⟩ := hnone
      rw [hwritten, Trail.push_ok] at htrail
      simp only [Trail.writeOut, hsink] at hworld hwritten
      have hlater : { w with ticks := w.ticks + 1 }.tree.FileAt w.directory path place content :=
        hfile
      rw [Trail.writeRecord_eq_ok hlater hwritten] at hworld
      subst hworld
      obtain ⟨rs, hrecords, hdirectory, htree⟩ := ih hidle' (by rw [htrail]; exact hsink) hfailure
        (hfile.put (content ++ Text.encode x.record.line))
      refine ⟨x.record :: rs, ?_, hdirectory, ?_⟩
      · rw [hrecords, htrail, List.append_assoc]
        rfl
      · rw [htree, FileTree.put_put, Log.encode_cons, List.append_assoc]

/-- A session with a log starts by going on with it. -/
theorem start_logged {c : Config} {path : Path} (hpath : c.audit.logPath = some path)
    (h : StateT.run (start c : StateM World _) w = (.ok s, w')) :
    ∃ t, s = ofConfig c t ∧ StateT.run (Trail.resume path : StateM World _) w = (.ok t, w') := by
  unfold start at h
  split at h
  · cases h
  simp only [hpath] at h
  rw [bind_run] at h
  rcases hresume : StateT.run (Trail.resume path : StateM World _) w with ⟨_ | t, w₁⟩
  · rw [hresume] at h
    cases h
  · rw [hresume] at h
    cases h
    exact ⟨t, rfl, rfl⟩

end Session

/-- A log has all of its records if none was added, or if its last line was blank. -/
theorem Log.parse_grown {content : Bytes} {rs₀ rs : List AuditRecord}
    (h : Log.parse content = .ok rs₀) (hchain : Chain.verify (rs₀ ++ rs) = .ok ())
    (hend : rs = [] ∨ Log.EndsBlank content) :
    Log.parse (content ++ Log.encode rs) = .ok (rs₀ ++ rs) := by
  rcases hend with rfl | hend
  · rwa [Log.encode, List.flatMap_nil, List.append_nil, List.append_nil]
  · exact Log.parse_append_encode h hend fun r hr =>
      Chain.sequence_le_of_verifyFrom hchain r (List.mem_append_right _ hr)

/-! ## What is reported -/

theorem Trail.readLog_congr {w w' : World} {path : Path}
    (h : w'.tree.read w'.directory path = w.tree.read w.directory path) :
    (StateT.run (readLog path : StateM World _) w').1 =
      (StateT.run (readLog path : StateM World _) w).1 := by
  cases hread : w.tree.read w.directory path with
  | ok content =>
    rw [readLog_run hread, readLog_run (h.trans hread)]
  | error e =>
    have hrun : ∀ v : World, v.tree.read v.directory path = .error e →
        (StateT.run (readLog path : StateM World _) v).1 = .error (.io path e) := by
      intro v hv
      have hhost : StateT.run (Host.read path : StateM World _) v = (.error e, v) := by
        show (v.tree.read v.directory path, v) = _
        rw [hv]
      rw [readLog, bind_run, hhost]
      rfl
    rw [hrun w hread, hrun w' (h.trans hread)]

namespace Command

variable {w w' : World} {root : String} {p : Project} {cards : List Card}

/-- What there is to say about the records that were read, and why there may be nothing. -/
def inspected (p : Project) :
    Except InitError (List AuditRecord) → Except Failure (Nat × Option Bool)
  | .error e => .error (("Failed to read audit log " ++ p.auditLogPath.text) :: e.failure)
  | .ok records => .ok (records.length, some (Chain.isValid records))

theorem inspectLog_run (w : World) (p : Project) :
    StateT.run (inspectLog p : StateM World _) w =
      (if (w.tree.kind? w.directory p.auditLogPath).isSome then
          inspected p (StateT.run (Trail.readLog p.auditLogPath : StateM World _) w).1
        else .ok (0, none), w) := by
  have hentry : StateT.run (Host.hasEntry p.auditLogPath : StateM World _) w =
    ((w.tree.kind? w.directory p.auditLogPath).isSome, w) := rfl
  rw [inspectLog, bind_run, hentry]
  cases (w.tree.kind? w.directory p.auditLogPath).isSome with
  | false => rfl
  | true =>
    simp only [if_true]
    rw [bind_run, Trail.readLog_world]
    cases (StateT.run (Trail.readLog p.auditLogPath : StateM World _) w).1 <;> rfl

namespace ProjectInfo

/-- How a project is reported in a world. -/
def report (i : ProjectInfo) (json : Bool) (w : World) : Report :=
  if json then Report.empty.print (Data.Json.pretty i.toValue)
  else Report.empty.printAll (i.lines ++
    [(StateT.run (directoryStatus "Meta" i.project.layout.metaDir : StateM World _) w).1,
      (StateT.run (directoryStatus "Rituals" i.project.layout.ritualsDir : StateM World _) w).1])

end ProjectInfo

theorem projectInfo_run (json : Bool)
    (hopen : StateT.run (Project.openRoot (.ofText root) : StateM World _) w = (.ok p, w))
    (hcards : p.archive.cards = .ok cards) :
    (StateT.run (projectInfoCommand root json : StateM World _) w).1 =
      match (StateT.run (inspectLog p : StateM World _) w).1 with
      | .error f => .failed f
      | .ok (records, chainValid) =>
        ProjectInfo.report ⟨p, cards.length, records, chainValid⟩ json w := by
  have hworld : (StateT.run (inspectLog p : StateM World _) w).2 = w := by rw [inspectLog_run]
  rw [projectInfoCommand, bind_run, hopen]
  simp only [hcards]
  rw [bind_run, hworld]
  cases (StateT.run (inspectLog p : StateM World _) w).1 with
  | error f => rfl
  | ok r =>
    obtain ⟨records, chainValid⟩ := r
    cases json <;> rfl

theorem inspectLog_congr (h : w'.tree.lookup w'.directory p.auditLogPath =
    w.tree.lookup w.directory p.auditLogPath) :
    (StateT.run (inspectLog p : StateM World _) w').1 =
      (StateT.run (inspectLog p : StateM World _) w).1 := by
  have hkind : w'.tree.kind? w'.directory p.auditLogPath =
      w.tree.kind? w.directory p.auditLogPath := by
    simp only [FileTree.kind?, h]
  have hread : w'.tree.read w'.directory p.auditLogPath =
      w.tree.read w.directory p.auditLogPath := by
    simp only [FileTree.read, h]
  rw [inspectLog_run, inspectLog_run, hkind, Trail.readLog_congr hread]

theorem inspectLog_file {q : Place} {content : Bytes}
    (h : w.tree.lookup w.directory p.auditLogPath = .ok (q, .file content)) :
    (StateT.run (inspectLog p : StateM World _) w).1 =
      inspected p (Trail.readResult p.auditLogPath (Log.parse content)) := by
  have hkind : w.tree.kind? w.directory p.auditLogPath = some .file := by
    simp only [FileTree.kind?, h, Entry.kind]
  rw [inspectLog_run, hkind, Trail.readLog_run (FileTree.read_of_lookup h)]
  rfl

section File

variable {q : Place} {content : Bytes} (json : Bool)
  (hopen : StateT.run (Project.openRoot (.ofText root) : StateM World _) w = (.ok p, w))
  (hcards : p.archive.cards = .ok cards)
  (hlog : w.tree.lookup w.directory p.auditLogPath = .ok (q, .file content))

include hopen hcards hlog

/-- A log with a chain is reported as such, with the number of its records. -/
theorem projectInfo_chain {rs : List AuditRecord} (hparse : Log.parse content = .ok rs)
    (hchain : Chain.verify rs = .ok ()) :
    (StateT.run (projectInfoCommand root json : StateM World _) w).1 =
      ProjectInfo.report ⟨p, cards.length, rs.length, some true⟩ json w := by
  have hvalid : Chain.isValid rs = true := by
    rw [Chain.isValid, hchain]
    rfl
  rw [projectInfo_run json hopen hcards, inspectLog_file hlog, hparse]
  simp only [Trail.readResult, inspected, hvalid]

/-- With a log that has a line that is no record, there is nothing to report on a project. -/
theorem projectInfo_malformed {line : Nat} (hparse : Log.parse content = .error (.malformed line)) :
    (StateT.run (projectInfoCommand root json : StateM World _) w).1 =
      .failed (("Failed to read audit log " ++ p.auditLogPath.text) ::
        (InitError.malformedLog line).failure) := by
  rw [projectInfo_run json hopen hcards, inspectLog_file hlog, hparse]
  rfl

end File

theorem report_congr (i : ProjectInfo) (json : Bool) (hdirectory : w'.directory = w.directory)
    (h : ∀ path, w'.tree.kind? w.directory path = w.tree.kind? w.directory path) :
    i.report json w' = i.report json w := by
  have hstatus : ∀ label path, (StateT.run (directoryStatus label path : StateM World _) w').1 =
      (StateT.run (directoryStatus label path : StateM World _) w).1 := by
    intro label path
    have hisDirectory : ∀ v : World, StateT.run (Host.isDirectory path : StateM World _) v =
      (decide (v.tree.kind? v.directory path = some .directory), v) := fun _ => rfl
    rw [directoryStatus, bind_run, bind_run, hisDirectory, hisDirectory, hdirectory, h]
    rfl
  simp only [ProjectInfo.report, hstatus]

/-- A new content of a file changes nothing in the information on a project whose log is
elsewhere. -/
theorem projectInfo_elsewhere {place : Place} {content new : Bytes} (json : Bool)
    (hopen : StateT.run (Project.openRoot (.ofText root) : StateM World _) w = (.ok p, w))
    (hopen' : StateT.run (Project.openRoot (.ofText root) : StateM World _) w' = (.ok p, w'))
    (hcards : p.archive.cards = .ok cards) (hentry : w.tree.entry place = some (.file content))
    (hdirectory : w'.directory = w.directory) (htree : w'.tree = w.tree.put place (.file new))
    (hother : w.tree.lookup w.directory p.auditLogPath ≠ .ok (place, .file content)) :
    (StateT.run (projectInfoCommand root json : StateM World _) w').1 =
      (StateT.run (projectInfoCommand root json : StateM World _) w).1 := by
  have hlookup : w'.tree.lookup w'.directory p.auditLogPath =
      w.tree.lookup w.directory p.auditLogPath := by
    rw [htree, hdirectory, FileTree.lookup_put_file hentry]
    cases hown : w.tree.lookup w.directory p.auditLogPath with
    | error e => rfl
    | ok found =>
      obtain ⟨q, e⟩ := found
      have hq : q ≠ place := by
        rintro rfl
        have he := FileTree.entry_of_lookup hown
        rw [hentry] at he
        cases he
        exact hother hown
      simp [Except.map, hq]
  have hkind : ∀ path, w'.tree.kind? w.directory path = w.tree.kind? w.directory path := by
    intro path
    rw [htree, FileTree.kind?_put_file hentry]
  rw [projectInfo_run json hopen' hcards, projectInfo_run json hopen hcards,
    inspectLog_congr hlookup]
  cases (StateT.run (inspectLog p : StateM World _) w).1 with
  | error f => rfl
  | ok found => exact report_congr _ json hdirectory hkind

/-! ## A small project -/

/-- Settings with a log for the project, which is called `log`, and one for its sessions. -/
def sampleSettings (path : String) : Data.Value :=
  .table [("name", .text "p"), ("config_version", .text "0.1.0"),
    ("archive", .table [("path", .text "cards")]), ("audit_log", .text "log"),
    ("interpreter", .table [("audit", .table [("log_path", .text path)])])]

/-- A tree with a file of settings and with a log that holds blanks. -/
def sampleTree (settings : Bytes) : FileTree :=
  ((FileTree.empty.put (placeOf [".spiral"]) .directory).put
    (placeOf ["log"]) (.file [0x0A, 0x20])).put
      (placeOf [".spiral", "project.json"]) (.file settings)

/-- A world with a project in the current directory and with a program as its input. -/
def sampleWorld (path program : String) : World where
  tree := sampleTree (Text.encode (Data.Json.compact (sampleSettings path)))
  directory := []
  input := Text.encode program
  clock n := ⟨n⟩
  ticks := 0
  faults _ := none
  appends := 0
  refuses _ _ := false

/-- The project with these settings. -/
def sampleProject (path : String) : Project where
  layout := ⟨.ofText "/"⟩
  config :=
    { name := "p", description := none, version := "0.1.0", archive := "cards", auditLog := "log"
      interpreter := { Config.default with audit := ⟨AuditConfig.sha256, some (.ofText path)⟩ } }
  archivePath := .ofText "/cards"
  archive := .ofCards []

/-- The world once the project has been opened. -/
def sampleOpened (path program : String) : World :=
  { sampleWorld path program with
    tree := (sampleWorld path program).tree.put (placeOf ["cards"])
      (.file (Store.ofCards []).encode) }

theorem held_sample (path : String) : (sampleProject path).config.HeldBy
    (Text.encode (Data.Json.compact (sampleSettings path))) := by
  have hwritable : (sampleSettings path).Writable := by simp [sampleSettings]
  exact ⟨_, _, Text.decode?_encode _, Data.Json.parse?_compact hwritable, rfl⟩

theorem sampleTree_eq (settings : Bytes) : sampleTree settings =
    (sampleTree []).put (placeOf [".spiral", "project.json"]) (.file settings) := by
  rw [sampleTree, sampleTree, FileTree.put_put]

theorem target_sampleTree (settings : Bytes) (p : Path) :
    (sampleTree settings).target [] p = (sampleTree []).target [] p := by
  have hfile : (sampleTree []).entry (placeOf [".spiral", "project.json"]) = some (.file []) :=
    FileTree.entry_put_self ..
  rw [sampleTree_eq, FileTree.target_put_file hfile]

theorem openRoot_sample (path program : String) :
    StateT.run (Project.openRoot (.ofText ".") : StateM World _) (sampleWorld path program) =
      (.ok (sampleProject path), sampleOpened path program) := by
  let settings := Text.encode (Data.Json.compact (sampleSettings path))
  have hsettings : (sampleTree settings).target [] (sampleProject path).layout.configPath =
      .ok ⟨placeOf [".spiral"], some (Text.encode "project.json"), false⟩ := by
    rw [target_sampleTree]
    show (sampleTree []).target [] (ProjectLayout.mk (.ofText "/")).configPath = _
    decide +kernel
  have hcards : (sampleTree settings).target [] (.ofText "/cards") =
      .ok ⟨[], some (Text.encode "cards"), false⟩ := by
    rw [target_sampleTree]
    decide +kernel
  have hlookup : (sampleTree settings).lookup [] (sampleProject path).layout.configPath =
      .ok (placeOf [".spiral", "project.json"], .file settings) :=
    FileTree.lookup_eq_ok_iff.2 ⟨_, hsettings, rfl, FileTree.entry_put_self .., by simp⟩
  have hentry : (sampleTree settings).entry (placeOf ["cards"]) = none := by
    rw [sampleTree_eq]
    exact (if_neg (by decide +kernel)).trans (by decide +kernel)
  have hopen : (sampleTree settings).openPlace [] (.ofText "/cards") = .ok (placeOf ["cards"]) :=
    FileTree.openPlace_eq_ok_iff.2 ⟨_, hcards, by simp, rfl, rfl, by simp [hentry]⟩
  have hlocated : (sampleProject path).layout.root =
      Project.located (sampleWorld path program) (.ofText ".") := by
    rw [Project.located, if_pos (by decide +kernel)]
    show Path.ofText "/" = FileTree.pathOf []
    decide +kernel
  refine Project.openRoot_eq_ok_iff.2 ⟨hlocated, Project.loadConfig_eq_ok_iff.2
    ⟨rfl, settings, FileTree.read_of_lookup hlookup, held_sample path⟩, ?_, ?_⟩
  · show Path.ofText "/cards" = (ProjectLayout.mk (.ofText "/")).resolve "cards"
    decide +kernel
  · exact Store.openFile_fresh hopen (.inl hentry) fun _ => rfl

/-! ## Reports after a run -/

/-- A session goes on with the records of its log, if that was there before or is a new file. -/
theorem parse_of_start {c : Config} {s : Session} {path : Path} {place : Place} {content : Bytes}
    (hpath : c.audit.logPath = some path)
    (h : StateT.run (Session.start c : StateM World _) w = (.ok s, w'))
    (hlog : w'.tree.lookup w'.directory path = .ok (place, .file content))
    (hknown : w.tree.kind? w.directory path = some .file ∨ content = []) :
    Log.parse content = .ok s.trail.records ∧ s.trail.sink = some path ∧
      w'.tree.FileAt w'.directory path place content ∧ w'.directory = w.directory ∧
      FileTree.Keeps w.tree w'.tree := by
  obtain ⟨t, rfl, hresume⟩ := Session.start_logged hpath h
  obtain ⟨rs, hexisting, -, hsink, rfl⟩ := Trail.resume_eq_ok_iff.1 hresume
  obtain ⟨-, t', rfl, hkeeps, q, hopen⟩ := Trail.openSink_eq_ok hsink
  refine ⟨?_, rfl, FileTree.fileAt_of_lookup hlog hopen, rfl, hkeeps⟩
  rw [Trail.existing] at hexisting
  by_cases hkind : w.tree.kind? w.directory path = some .file
  · obtain ⟨q, c, hlookup⟩ := FileTree.lookup_of_file hkind
    rw [if_pos hkind, Trail.readLog_run (FileTree.read_of_lookup hlookup)] at hexisting
    cases hlog.symm.trans (FileTree.lookup_of_keeps hkeeps hlookup)
    exact Trail.readResult_eq_ok_iff.1 hexisting
  · obtain rfl := hknown.resolve_left hkind
    rw [if_neg hkind] at hexisting
    cases hexisting
    rfl

/-- A project stands also after its log got a new content, unless the log is its settings. -/
theorem stands_of_log {path : Path} {settings archive place : Place} {content new : Bytes}
    {rs : List AuditRecord} (h : p.Stands w path settings archive)
    (hfile : w.tree.entry place = some (.file content)) (hparse : Log.parse content = .ok rs)
    (hsettings : w.tree.lookup w.directory p.layout.configPath ≠ .ok (place, .file content))
    (hdirectory : w'.directory = w.directory) (htree : w'.tree = w.tree.put place (.file new)) :
    p.Stands w' path settings archive := by
  have hneSettings : settings ≠ place := by
    rintro rfl
    obtain ⟨bytes, hlookup, -⟩ := h.settings
    have hentry := FileTree.entry_of_lookup hlookup
    rw [hfile] at hentry
    cases hentry
    exact hsettings hlookup
  have hneArchive : archive ≠ place := by
    rintro rfl
    rcases h.archive.entry with ⟨bytes, hentry, hdecode⟩ | ⟨hentry, -⟩
    · rw [hfile] at hentry
      cases hentry
      exact Log.parse_archive hdecode (h.sound.ne_nil hdecode) rs hparse
    · rw [hfile] at hentry
      cases hentry
  have hkeeps : FileTree.KeepsDirectories w.tree w'.tree :=
    htree ▸ FileTree.keepsDirectories_put (by simp [hfile]) _
  refine h.of_entry hdirectory hkeeps ?_ ?_
  · rw [htree]
    exact if_neg hneSettings
  · rw [htree]
    exact if_neg hneArchive

/-! A run of a program in a project, up to the point where its session is open and has a log. -/

section Run

variable {o : RunOptions} {w₁ w₂ w₃ : World} {program : String} {s : Session} {path : Path}
  {place : Place} {content : Bytes}
  (hoptions : o.root = some root ∧ o.config = none ∧ o.auditLog = none)
  (hread : StateT.run (readProgram o.file : StateM World _) w = (.ok program, w₁))
  (hroot : w₁.tree.kind? w₁.directory (.ofText root) = some .directory)
  (hopen : StateT.run (Project.openRoot (.ofText root) : StateM World _) w₁ = (.ok p, w₂))
  (hstart : StateT.run (Session.start p.interpreter : StateM World _) w₂ = (.ok s, w₃))
  (hpath : p.interpreter.audit.logPath = some path)
  (hlog : w₃.tree.lookup w₃.directory path = .ok (place, .file content))
  (hknown : w₂.tree.kind? w₂.directory path = some .file ∨ content = [])
  (hsettings : w₃.tree.lookup w₃.directory p.layout.configPath ≠ .ok (place, .file content))

include hoptions hread hopen hstart in
/-- The command does to the world what executing the lines of the program does. -/
theorem runCommand_world : (StateT.run (runCommand o : StateM World _) w).2 =
    let r := s.run { w₃ with ticks := w₃.ticks + 1 }
      ((Text.lines program).map (.executeLine (collaborators (some p))))
    { r.world with ticks := r.world.ticks + 1 } := by
  obtain ⟨hoRoot, hoConfig, hoLog⟩ := hoptions
  have hproject : StateT.run (openProject? o.root : StateM World _) w₁ = (.ok (some p), w₂) := by
    rw [hoRoot, openProject?, bind_run, hopen]
    rfl
  have hbase : StateT.run (baseConfig o.config (some p) : StateM World _) w₂ =
      (.ok p.interpreter, w₂) := by
    rw [hoConfig]
    rfl
  have hsettle : settleLog o.auditLog (some p) p.interpreter = p.interpreter := by
    rw [hoLog]
    rfl
  have hnow : StateT.run (Host.now : StateM World _) w₃ =
    (w₃.clock w₃.ticks, { w₃ with ticks := w₃.ticks + 1 }) := rfl
  obtain ⟨hidle, -⟩ := start_fresh hstart
  have hlineRun := Session.lineRun (collaborators (some p)) hidle
    { w₃ with ticks := w₃.ticks + 1 } (Text.lines program)
  obtain ⟨report, hlines⟩ := runLines_run hlineRun o.json 1 .zero .empty
  rw [runCommand, bind_run, hread]
  dsimp only
  rw [bind_run, hproject]
  dsimp only
  rw [bind_run, hbase]
  dsimp only
  rw [hsettle, bind_run, hstart]
  dsimp only
  rw [runProgram, bind_run, hnow, bind_run, parseProgram, hlines]
  rfl

include hoptions hread hroot hopen hstart hpath hlog hknown hsettings in
/-- What a run leaves behind: the records that it added stand at the end of its log, and the project
can be opened as it is. -/
theorem project_after_run :
    let r := s.run { w₃ with ticks := w₃.ticks + 1 }
      ((Text.lines program).map (.executeLine (collaborators (some p))))
    let after := (StateT.run (runCommand o : StateM World _) w).2
    r.session.trail.failure = none →
      Chain.verify r.session.trail.records = .ok () ∧
      Log.parse content = .ok s.trail.records ∧
      StateT.run (Project.openRoot (.ofText root) : StateM World _) w₃ = (.ok p, w₃) ∧
      StateT.run (Project.openRoot (.ofText root) : StateM World _) after = (.ok p, after) ∧
      ∃ rs, r.session.trail.records = s.trail.records ++ rs ∧ after.directory = w₃.directory ∧
        w₃.tree.entry place = some (.file content) ∧
        after.tree = w₃.tree.put place (.file (content ++ Log.encode rs)) := by
  intro r after hfailure
  have hafter : after = { r.world with ticks := r.world.ticks + 1 } :=
    runCommand_world hoptions hread hopen hstart
  obtain ⟨hidle, -⟩ := start_fresh hstart
  have hchain : Chain.verify r.session.trail.records = .ok () := by
    obtain ⟨-, t, hverify, rfl⟩ := Session.start_run hstart
    exact (Session.recorded_run hverify _ _).chain
  obtain ⟨hparse, hsink, hfile, hdirectory, hkeeps⟩ := parse_of_start hpath hstart hlog hknown
  obtain ⟨rs, hrecords, hrunDirectory, hrunTree⟩ :=
    Session.written_run (Session.lineRun (collaborators (some p)) hidle _ _) hidle hsink hfailure
      hfile
  have hafterDirectory : after.directory = w₃.directory := by
    rw [hafter]
    exact hrunDirectory
  have hafterTree : after.tree = w₃.tree.put place (.file (content ++ Log.encode rs)) := by
    rw [hafter]
    exact hrunTree
  obtain ⟨settings, archive, hstands₂⟩ := Project.stands_of_openRoot hroot hopen
  have hstands₃ := hstands₂.of_keeps hdirectory hkeeps
  have hstands :=
    stands_of_log hstands₃ hfile.entry hparse hsettings hafterDirectory hafterTree
  exact ⟨hchain, hparse, hstands₃.openRoot, hstands.openRoot, rs, hrecords, hafterDirectory,
    hfile.entry, hafterTree⟩

end Run

/-- A project is opened from its root, and a program is run in it, with the log that the settings
lead to: a file that is not the settings themselves, and that was there before or is new. If every
record could be written, then the information on the project is as follows. If the log of the
project is that file, it has the records of the session, and they are a chain, unless a record was
added behind a line that was not ended, which makes the log unreadable. If it is another file, or
none, then the information is what it was before the program was run. -/
theorem info_after_run {o : RunOptions} {w w₁ w₂ w₃ : World} {program : String} {s : Session}
    {path : Path} {place : Place} {content : Bytes}
    (hoptions : o.root = some root ∧ o.config = none ∧ o.auditLog = none)
    (hread : StateT.run (readProgram o.file : StateM World _) w = (.ok program, w₁))
    (hroot : w₁.tree.kind? w₁.directory (.ofText root) = some .directory)
    (hopen : StateT.run (Project.openRoot (.ofText root) : StateM World _) w₁ = (.ok p, w₂))
    (hcards : p.archive.cards = .ok cards)
    (hstart : StateT.run (Session.start p.interpreter : StateM World _) w₂ = (.ok s, w₃))
    (hpath : p.interpreter.audit.logPath = some path)
    (hlog : w₃.tree.lookup w₃.directory path = .ok (place, .file content))
    (hknown : w₂.tree.kind? w₂.directory path = some .file ∨ content = [])
    (hsettings : w₃.tree.lookup w₃.directory p.layout.configPath ≠ .ok (place, .file content)) :
    let r := s.run { w₃ with ticks := w₃.ticks + 1 }
      ((Text.lines program).map (.executeLine (collaborators (some p))))
    let after := (StateT.run (runCommand o : StateM World _) w).2
    let info (json : Bool) (v : World) :=
      (StateT.run (projectInfoCommand root json : StateM World _) v).1
    let records := r.session.trail.records
    let same := w₃.tree.lookup w₃.directory p.auditLogPath = .ok (place, .file content)
    r.session.trail.failure = none →
      (same → records = s.trail.records ∨ Log.EndsBlank content →
        ∀ json, info json after =
          ProjectInfo.report ⟨p, cards.length, records.length, some true⟩ json after) ∧
      (same → records ≠ s.trail.records → ¬ Log.EndsBlank content →
        ∀ json, info json after = .failed (("Failed to read audit log " ++ p.auditLogPath.text) ::
          (InitError.malformedLog
            (1 + (Text.byteLines (Text.ended content)).length)).failure)) ∧
      (¬ same → ∀ json, info json after = info json w₃) := by
  intro r after info records same hfailure
  obtain ⟨hchain, hparse, hopen₃, hopenAfter, rs, hrecords, hdirectory, hentry, htree⟩ :=
    project_after_run hoptions hread hroot hopen hstart hpath hlog hknown hsettings hfailure
  have hlookup : same → after.tree.lookup after.directory p.auditLogPath =
      .ok (place, .file (content ++ Log.encode rs)) := by
    intro hsame
    rw [htree, hdirectory, FileTree.lookup_put_file hentry, hsame]
    simp [Except.map]
  refine ⟨fun hsame hend json => ?_, fun hsame hne hend json => ?_, fun hother json => ?_⟩
  · have hend' : rs = [] ∨ Log.EndsBlank content :=
      hend.imp_left fun heq => List.append_right_eq_self.1 (hrecords.symm.trans heq)
    have hcontent := Log.parse_grown hparse (hrecords ▸ hchain) hend'
    rw [← hrecords] at hcontent
    exact projectInfo_chain json hopenAfter hcards (hlookup hsame) hcontent hchain
  · obtain ⟨r₀, rs, rfl⟩ : ∃ r₀ more, rs = r₀ :: more := by
      refine List.exists_cons_of_ne_nil ?_
      rintro rfl
      exact hne (hrecords.trans (List.append_nil _))
    exact projectInfo_malformed json hopenAfter hcards (hlookup hsame)
      (Log.parse_append_encode_malformed hparse hend r₀ rs)
  · exact projectInfo_elsewhere json hopen₃ hopenAfter hcards hentry hdirectory htree hother

/-- The settings lead to the log of the project by another path. -/
theorem info_after_run_blank :
    let program := "ritual.engage \"walk\""
    let o : RunOptions := ⟨stdinName, some ".", none, none, true⟩
    let p := sampleProject "log"
    let after := (StateT.run (runCommand o : StateM World _) (sampleWorld "log" program)).2
    p.interpreter.audit.logPath = some (.ofText "log") ∧ p.auditLogPath = .ofText "/log" ∧
      ∀ json, (StateT.run (projectInfoCommand "." json : StateM World _) after).1 =
        ProjectInfo.report ⟨p, 0, 1, some true⟩ json after := by
  intro program o p after
  let started := StateT.run (Session.start p.interpreter : StateM World _)
    (sampleOpened "log" program)
  let run (s : Session) := s.run { started.2 with ticks := started.2.ticks + 1 }
    ((Text.lines program).map (.executeLine (collaborators (some p))))
  have hrun : (started.1.toOption.map fun s =>
      ((run s).session.trail.failure, (run s).session.trail.records.length)) = some (none, 1) := by
    decide +kernel
  have hroot : (sampleWorld "log" program).tree.kind? [] (.ofText ".") = some .directory := by
    decide +kernel
  have hpath : p.interpreter.audit.logPath = some (.ofText "log") := rfl
  have hknown : (sampleOpened "log" program).tree.kind? [] (.ofText "log") = some .file := by
    decide +kernel
  have hlog : started.2.tree.lookup started.2.directory (.ofText "log") =
      .ok (placeOf ["log"], .file [0x0A, 0x20]) := by decide +kernel
  have hsame : started.2.tree.lookup started.2.directory p.auditLogPath =
      .ok (placeOf ["log"], .file [0x0A, 0x20]) := by decide +kernel
  have hsettings : started.2.tree.lookup started.2.directory p.layout.configPath ≠
      .ok (placeOf ["log"], .file [0x0A, 0x20]) := by decide +kernel
  have hend : Log.EndsBlank [0x0A, 0x20] := by decide +kernel
  refine ⟨hpath, by decide +kernel, fun json => ?_⟩
  obtain ⟨s, hs, hrun⟩ := Option.map_eq_some_iff.1 hrun
  obtain ⟨hfailure, hlength⟩ := Prod.mk.inj hrun
  have hs : started.1 = .ok s := toOption_eq_some_iff.1 hs
  have hread : StateT.run (readProgram o.file : StateM World _) (sampleWorld "log" program) =
      (.ok program, sampleWorld "log" program) :=
    Program.readProgram_stdin (sampleWorld "log" program) program
  have hcards : p.archive.cards = .ok [] := Store.cards_ofCards []
  have hstart : StateT.run (Session.start p.interpreter : StateM World _)
    (sampleOpened "log" program) = (.ok s, started.2) := Prod.ext hs rfl
  have hreports := info_after_run ⟨rfl, rfl, rfl⟩ hread hroot (openRoot_sample "log" program)
    hcards hstart hpath hlog (.inl hknown) hsettings hfailure
  have hreport := hreports.1 hsame (.inr hend) json
  rw [hlength] at hreport
  exact hreport

/-- The settings lead to a log that is not the one of the project. A program adds a record to it,
and the project is reported to have none. -/
theorem other_log_unreported :
    let program := "ritual.engage \"walk\""
    let o : RunOptions := ⟨stdinName, some ".", none, none, true⟩
    let p := sampleProject "other"
    let w := sampleWorld "other" program
    let started := StateT.run (Session.start p.interpreter : StateM World _)
      (sampleOpened "other" program)
    let run (s : Session) := s.run { started.2 with ticks := started.2.ticks + 1 }
      ((Text.lines program).map (.executeLine (collaborators (some p))))
    let after := (StateT.run (runCommand o : StateM World _) w).2
    StateT.run (Project.openRoot (.ofText ".") : StateM World _) w =
        (.ok p, sampleOpened "other" program) ∧
      (∃ s, started.1 = .ok s ∧ (run s).session.trail.failure = none ∧
        (run s).session.trail.records.length = 1) ∧
      (StateT.run (projectInfoCommand "." true : StateM World _) after).1 =
        Report.empty.print (Data.Json.pretty (ProjectInfo.toValue ⟨p, 0, 0, some true⟩)) := by
  intro program o p w started run after
  have hrun : (started.1.toOption.map fun s =>
      ((run s).session.trail.failure, (run s).session.trail.records.length)) = some (none, 1) := by
    decide +kernel
  have hroot : w.tree.kind? [] (.ofText ".") = some .directory := by decide +kernel
  have hpath : p.interpreter.audit.logPath = some (.ofText "other") := rfl
  have hlog : started.2.tree.lookup started.2.directory (.ofText "other") =
      .ok (placeOf ["other"], .file []) := by decide +kernel
  have hown : started.2.tree.lookup started.2.directory p.auditLogPath =
      .ok (placeOf ["log"], .file [0x0A, 0x20]) := by decide +kernel
  have hsettings : started.2.tree.lookup started.2.directory p.layout.configPath ≠
      .ok (placeOf ["other"], .file []) := by decide +kernel
  have hother : started.2.tree.lookup started.2.directory p.auditLogPath ≠
      .ok (placeOf ["other"], .file []) := by decide +kernel
  have hparse : Log.parse [0x0A, 0x20] = .ok [] := by decide +kernel
  obtain ⟨s, hs, hrun⟩ := Option.map_eq_some_iff.1 hrun
  obtain ⟨hfailure, hlength⟩ := Prod.mk.inj hrun
  have hs : started.1 = .ok s := toOption_eq_some_iff.1 hs
  refine ⟨openRoot_sample "other" program, ⟨s, hs, hfailure, hlength⟩, ?_⟩
  have hread : StateT.run (readProgram o.file : StateM World _) w = (.ok program, w) :=
    Program.readProgram_stdin (sampleWorld "other" program) program
  have hcards : p.archive.cards = .ok [] := Store.cards_ofCards []
  have hstart : StateT.run (Session.start p.interpreter : StateM World _)
    (sampleOpened "other" program) = (.ok s, started.2) := Prod.ext hs rfl
  obtain ⟨-, -, hopen₃, hopenAfter, rs, -, hdirectory, hentry, htree⟩ :=
    project_after_run ⟨rfl, rfl, rfl⟩ hread hroot (openRoot_sample "other" program) hstart hpath
      hlog (.inr rfl) hsettings hfailure
  have hsame :=
    projectInfo_elsewhere true hopen₃ hopenAfter hcards hentry hdirectory htree hother
  have hreport := projectInfo_chain true hopen₃ hcards hown hparse rfl
  exact hsame.trans hreport

end Command

end RitualGate
