import RitualGate.Project.Basic
import RitualGate.Proofs.ArchiveFile

/-!
# Opening a project again

Opening a project reads its settings and its archive, and writes the archive. `Stands` says what
there is then: a root, settings and an archive that is in the current version. A project that was
opened stands (`stands_of_openRoot`), goes on standing as long as its settings and its archive are
left alone (`Stands.of_entry`), and is opened again without a change of the world
(`Stands.openRoot`).
-/

namespace RitualGate

open Session (bind_run)

/-- The settings that a file holds. -/
def ProjectConfig.HeldBy (c : ProjectConfig) (bytes : Bytes) : Prop :=
  ∃ text v, Text.decode? bytes = some text ∧ Data.Json.parse? text = some v ∧
    ProjectConfig.ofValue v = .ok c

theorem ProjectConfig.HeldBy.ne_nil {c : ProjectConfig} {bytes : Bytes} (h : c.HeldBy bytes) :
    bytes ≠ [] := by
  obtain ⟨text, v, htext, hv, -⟩ := h
  rintro rfl
  obtain rfl : text = "" := (Option.some.inj htext).symm
  cases hv

namespace Project

variable {w w' : World} {root : Path} {p : Project} {l : ProjectLayout} {c : ProjectConfig}

theorem readText_eq_ok_iff {path : Path} {text : String} :
    StateT.run (Host.readText path : StateM World _) w = (.ok text, w') ↔ w' = w ∧
      ∃ bytes, w.tree.read w.directory path = .ok bytes ∧ Text.decode? bytes = some text := by
  have hread : StateT.run (Host.read path : StateM World _) w =
    (w.tree.read w.directory path, w) := rfl
  rw [Host.readText, bind_run, hread]
  cases w.tree.read w.directory path with
  | error e => exact ⟨nofun, nofun⟩
  | ok bytes =>
    cases htext : Text.decode? bytes with
    | none =>
      simp only [htext]
      refine ⟨nofun, ?_⟩
      rintro ⟨-, _, heq, hsome⟩
      cases heq
      rw [htext] at hsome
      cases hsome
    | some text' =>
      simp only [htext]
      constructor
      · intro h
        cases h
        exact ⟨rfl, bytes, rfl, htext⟩
      · rintro ⟨rfl, _, heq, hsome⟩
        cases heq
        rw [htext] at hsome
        cases hsome
        rfl

theorem loadConfig_eq_ok_iff : StateT.run (loadConfig l : StateM World _) w = (.ok c, w') ↔
    w' = w ∧ ∃ bytes, w.tree.read w.directory l.configPath = .ok bytes ∧ c.HeldBy bytes := by
  rw [loadConfig, bind_run]
  rcases hread : StateT.run (Host.readText l.configPath : StateM World _) w with ⟨e | text, w₁⟩
  · refine ⟨nofun, ?_⟩
    rintro ⟨rfl, bytes, hbytes, text, v, htext, -⟩
    have hok := readText_eq_ok_iff.2 ⟨rfl, bytes, hbytes, htext⟩
    rw [hread] at hok
    cases hok
  · obtain ⟨rfl, bytes, hbytes, htext⟩ := readText_eq_ok_iff.1 hread
    dsimp only
    constructor
    · intro h
      split at h
      · cases h
      rename_i v hv
      split at h
      · rename_i hc
        cases h
        exact ⟨rfl, bytes, hbytes, text, v, htext, hv, hc⟩
      · cases h
    · rintro ⟨rfl, _, hbytes', _, v, htext', hv, hc⟩
      rw [hbytes] at hbytes'
      cases hbytes'
      rw [htext] at htext'
      cases htext'
      simp only [hv, hc]
      rfl

/-- Where a path is located, seen from a world. -/
def located (w : World) (root : Path) : Path :=
  if root.components = [.here] then FileTree.pathOf w.directory
  else (w.tree.canonical? w.directory root).getD ((FileTree.pathOf w.directory).join root)

theorem locate_run (w : World) (root : Path) :
    StateT.run (Host.locate root : StateM World _) w = (located w root, w) := by
  have hcanonical : StateT.run (Host.canonical? root : StateM World _) w =
    (w.tree.canonical? w.directory root, w) := rfl
  rw [Host.locate, located]
  split
  · rfl
  · rw [bind_run, hcanonical]
    cases w.tree.canonical? w.directory root <;> rfl

theorem openRoot_eq_ok_iff : StateT.run (openRoot root : StateM World _) w = (.ok p, w') ↔
    p.layout.root = located w root ∧
      StateT.run (loadConfig p.layout : StateM World _) w = (.ok p.config, w) ∧
      p.archivePath = p.layout.resolve p.config.archive ∧
      StateT.run (Store.openFile p.archivePath : StateM World _) w = (.ok p.archive, w') := by
  rw [openRoot, bind_run, locate_run, bind_run, openLayout, bind_run]
  dsimp only
  constructor
  · intro h
    rcases hload : StateT.run (loadConfig ⟨located w root⟩ : StateM World _) w with ⟨_ | c, w₁⟩
    · rw [hload] at h
      cases h
    obtain ⟨rfl, -⟩ := loadConfig_eq_ok_iff.1 hload
    rw [hload] at h
    dsimp only at h
    rw [bind_run] at h
    rcases hopen : StateT.run (Store.openFile
      ((⟨located w₁ root⟩ : ProjectLayout).resolve c.archive) : StateM World _) w₁ with ⟨_ | s, w₂⟩
    · rw [hopen] at h
      cases h
    · rw [hopen] at h
      cases h
      exact ⟨rfl, hload, rfl, hopen⟩
  · obtain ⟨⟨l⟩, c, path, s⟩ := p
    rintro ⟨hlocated, hload, harchive, hopen⟩
    dsimp only at hlocated hload harchive hopen
    subst hlocated harchive
    rw [hload]
    dsimp only
    rw [bind_run, hopen]
    rfl

/-- A project is where its root is, with its settings and its archive at two places. -/
structure Stands (w : World) (root : Path) (p : Project) (settings archive : Place) : Prop where
  layout : p.layout.root = located w root
  root : w.tree.kind? w.directory root = some .directory
  settings : ∃ bytes, w.tree.lookup w.directory p.layout.configPath = .ok (settings, .file bytes) ∧
    p.config.HeldBy bytes
  archivePath : p.archivePath = p.layout.resolve p.config.archive
  archive : p.archive.FiledAt w p.archivePath archive
  sound : p.archive.Sound

/-- A project that stands is opened as it is. -/
theorem Stands.openRoot {settings archive : Place} (h : Stands w root p settings archive) :
    StateT.run (Project.openRoot root : StateM World _) w = (.ok p, w) := by
  obtain ⟨bytes, hsettings, hheld⟩ := h.settings
  exact openRoot_eq_ok_iff.2 ⟨h.layout,
    loadConfig_eq_ok_iff.2 ⟨rfl, bytes, FileTree.read_of_lookup hsettings, hheld⟩, h.archivePath,
    h.archive.openFile h.sound⟩

theorem located_of_keeps (hroot : w.tree.kind? w.directory root = some .directory)
    (hdirectory : w'.directory = w.directory)
    (hkeeps : FileTree.KeepsDirectories w.tree w'.tree) : located w' root = located w root := by
  obtain ⟨g, hg, hentry⟩ := FileTree.kind?_directory_iff.1 hroot
  have hlookup : w.tree.lookup w.directory root = .ok (g.place, .directory) :=
    FileTree.lookup_eq_ok_iff.2 ⟨g, hg, rfl, hentry, fun _ => rfl⟩
  have hlookup' := FileTree.lookup_of_entry hkeeps hlookup ((hkeeps _ hentry).trans hentry.symm)
  simp only [located, hdirectory, FileTree.canonical?, hlookup, hlookup']

/-- A project goes on standing as long as directories stay and its settings and its archive do. -/
theorem Stands.of_entry {settings archive : Place} (h : Stands w root p settings archive)
    (hdirectory : w'.directory = w.directory)
    (hkeeps : FileTree.KeepsDirectories w.tree w'.tree)
    (hsettings : w'.tree.entry settings = w.tree.entry settings)
    (harchive : w'.tree.entry archive = w.tree.entry archive) :
    Stands w' root p settings archive where
  layout := h.layout.trans (located_of_keeps h.root hdirectory hkeeps).symm
  root := hdirectory.symm ▸ FileTree.directory_of_keeps hkeeps h.root
  settings := by
    obtain ⟨bytes, hlookup, hheld⟩ := h.settings
    rw [hdirectory]
    exact ⟨bytes, FileTree.lookup_of_entry hkeeps hlookup hsettings, hheld⟩
  archivePath := h.archivePath
  archive := by
    refine ⟨hdirectory.symm ▸ FileTree.openPlace_of_keeps hkeeps h.archive.openPlace ?_, ?_⟩
    · rcases h.archive.entry with ⟨bytes, hfile, -⟩ | ⟨hdevice, -⟩ <;> simp [*]
    · exact harchive.symm ▸ h.archive.entry
  sound := h.sound

theorem Stands.of_keeps {settings archive : Place} (h : Stands w root p settings archive)
    (hdirectory : w'.directory = w.directory) (hkeeps : FileTree.Keeps w.tree w'.tree) :
    Stands w' root p settings archive := by
  have hsame : ∀ q e, w.tree.entry q = some e → w'.tree.entry q = w.tree.entry q :=
    fun q e hq => (hkeeps q e hq).trans hq.symm
  obtain ⟨bytes, hsettings, -⟩ := h.settings
  refine h.of_entry hdirectory hkeeps.directories
    (hsame _ _ (FileTree.entry_of_lookup hsettings)) ?_
  rcases h.archive.entry with ⟨bytes, hfile, -⟩ | ⟨hdevice, -⟩
  · exact hsame _ _ hfile
  · exact hsame _ _ hdevice

/-- A project that was opened at a directory stands. -/
theorem stands_of_openRoot (hroot : w.tree.kind? w.directory root = some .directory)
    (h : StateT.run (Project.openRoot root : StateM World _) w = (.ok p, w')) :
    ∃ settings archive, Stands w' root p settings archive := by
  obtain ⟨hlayout, hload, hpath, hopen⟩ := openRoot_eq_ok_iff.1 h
  obtain ⟨-, bytes, hread, hheld⟩ := loadConfig_eq_ok_iff.1 hload
  obtain ⟨hsound, archive, t', rfl, hfiled, hold, hkeeps, hsame⟩ := Store.filedAt_of_openFile hopen
  obtain ⟨settings, hsettings⟩ := FileTree.lookup_of_read hread hheld.ne_nil
  have hne : settings ≠ archive := by
    rintro rfl
    obtain ⟨text, v, htext, hv, -⟩ := hheld
    obtain ⟨s₀, hs₀⟩ := hold bytes (FileTree.entry_of_lookup hsettings)
    exact Store.decode_settings htext hv hs₀
  have hlocated : located { w with tree := t' } root = located w root :=
    located_of_keeps hroot rfl hkeeps
  exact ⟨settings, archive, hlayout.trans hlocated.symm,
    FileTree.directory_of_keeps hkeeps hroot,
    ⟨bytes, FileTree.lookup_of_entry hkeeps hsettings (hsame _ hne), hheld⟩,
    hpath, hfiled, hsound⟩

end Project

end RitualGate
