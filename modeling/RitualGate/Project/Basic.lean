import RitualGate.Archive.File
import RitualGate.Data.Json.Reader
import RitualGate.Failure
import RitualGate.Project.Settings

/-!
# Projects

An open project has its settings and its archive at hand.
-/

namespace RitualGate

/-- A project that is open. -/
structure Project where
  layout : ProjectLayout
  config : ProjectConfig
  /-- The file of the archive. -/
  archivePath : Path
  archive : Store

namespace Project

/-- The file of the audit log. -/
def auditLogPath (p : Project) : Path :=
  p.layout.resolve p.config.auditLog

/-- What the sessions of the project are set up with. Their log is that of the project, unless the
settings name another. -/
def interpreter (p : Project) : Config :=
  let c := p.config.interpreter
  { c with audit := { c.audit with logPath := some (c.audit.logPath.getD p.auditLogPath) } }

variable {m : Type → Type} [Monad m] [Host m]

/-- Reads the settings of the project with a layout. -/
def loadConfig (l : ProjectLayout) : m (Except Failure ProjectConfig) := do
  match ← Host.readText l.configPath with
  | .error e => return .error ["Failed to read project config at " ++ l.configPath.text, e.message]
  | .ok s =>
    match Data.Json.parse? s with
    | none => return .error ["Failed to parse project config JSON", jsonCause]
    | some v =>
      match ProjectConfig.ofValue v with
      | .ok c => return .ok c
      | .error _ => return .error ["Failed to parse project config JSON", jsonCause]

/-- Opens the project with a layout. -/
def openLayout (l : ProjectLayout) : m (Except Failure Project) := do
  match ← loadConfig l with
  | .error f => return .error f
  | .ok config =>
    let archivePath := l.resolve config.archive
    match ← Store.openFile archivePath with
    | .error e =>
      return .error ["Failed to open memory archive at " ++ archivePath.text, e.cause]
    | .ok archive => return .ok ⟨l, config, archivePath, archive⟩

/-- Opens the project at a root. -/
def openRoot (root : Path) : m (Except Failure Project) := do
  let root ← Host.locate root
  match ← openLayout ⟨root⟩ with
  | .error f => return .error (("Failed to open ritual project at " ++ root.text) :: f)
  | .ok p => return .ok p

end Project

end RitualGate
