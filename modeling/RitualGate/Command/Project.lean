import RitualGate.Audit.Trail
import RitualGate.Command.Report
import RitualGate.Project.Basic

/-!
# Projects and their cards
-/

namespace RitualGate

open Data (Value)

namespace Command

variable {m : Type → Type} [Monad m] [Host m]

/-- Makes the directories of a project, its settings and its archive. -/
def createProject (l : ProjectLayout) (config : ProjectConfig) : m (Except Failure Unit) := do
  match ← Host.makeDirs l.metaDir with
  | .error e => return .error ["Failed to create meta dir: " ++ l.metaDir.text, e.message]
  | .ok () =>
    match ← Host.makeDirs l.ritualsDir with
    | .error e => return .error ["Failed to create rituals dir: " ++ l.ritualsDir.text, e.message]
    | .ok () =>
      match ← Host.write l.configPath (Text.encode (Data.Json.pretty config.toValue)) with
      | .error e =>
        return .error ["Failed to write project config: " ++ l.configPath.text, e.message]
      | .ok () =>
        match ← Store.openFile l.archivePath with
        | .error e =>
          return .error ["Failed to initialize memory archive at " ++ l.archivePath.text, e.cause]
        | .ok _ => return .ok ()

/-- Makes a new project. Its name is that of its directory unless another is given. -/
def initProjectCommand (root : String) (name : Option String) : m Report := do
  let l : ProjectLayout := ⟨← Host.locate (.ofText root)⟩
  let config := ProjectConfig.new (name.getD l.root.projectName) l
  match ← createProject l config with
  | .error f => return .failed f
  | .ok () =>
    return Report.empty.printAll [
      "Initialized SpiralLogic project:",
      "  Name: " ++ config.name,
      "  Root: " ++ l.root.text,
      "  Config: " ++ l.configPath.text,
      "  Archive (relative): " ++ config.archive,
      "  Audit log (relative): " ++ config.auditLog,
      "  Rituals dir: " ++ l.ritualsDir.text]

/-! ## Information -/

/-- What there is to know about a project. -/
structure ProjectInfo where
  project : Project
  cards : Nat
  records : Nat
  /-- Whether the chain in the log is sound, if there is a log. -/
  chainValid : Option Bool

namespace ProjectInfo

/-- The names of the personas. -/
def personas (i : ProjectInfo) : List String :=
  i.project.config.interpreter.personas.map Persona.token

/-- The level at the start of a session. -/
def initialLevel (i : ProjectInfo) : String :=
  i.project.config.interpreter.bandwidth.initialLevel.name

/-- The data of what there is to know. -/
def toValue (i : ProjectInfo) : Value :=
  let c := i.project.config
  let l := i.project.layout
  .table [
    ("name", .text c.name),
    ("root", .text l.root.text),
    ("config_file", .text l.configPath.text),
    ("config_version", .text c.version),
    ("archive_path", .text c.archive),
    ("audit_log", .text c.auditLog),
    ("cards", .nat i.cards),
    ("audit_records", .nat i.records),
    ("audit_chain_valid", .option .bool i.chainValid),
    ("personas", .texts i.personas),
    ("initial_bandwidth", .text i.initialLevel),
    ("rituals_dir", .text l.ritualsDir.text)]

/-- What is said about the log. -/
def recordsText (i : ProjectInfo) : String :=
  match i.chainValid with
  | some true => "Audit records: " ++ Text.numeral i.records ++ " (chain OK)"
  | some false => "Audit records: " ++ Text.numeral i.records ++ " (chain BROKEN)"
  | none => "Audit records: none yet"

/-- The lines of what there is to know, but for the directories. -/
def lines (i : ProjectInfo) : List String :=
  let c := i.project.config
  let l := i.project.layout
  ["SpiralLogic Project Info",
    "========================",
    "Name: " ++ c.name,
    "Root: " ++ l.root.text,
    "Config file: " ++ l.configPath.text,
    "Config version: " ++ c.version,
    "Archive (config): " ++ c.archive,
    "Audit log (config): " ++ c.auditLog,
    "Personas: " ++ ", ".intercalate i.personas,
    "Initial bandwidth: " ++ i.initialLevel,
    "",
    "Memory cards: " ++ Text.numeral i.cards,
    i.recordsText,
    "",
    "Directories:"]

end ProjectInfo

/-- Reads the log of a project and checks its chain. -/
def inspectLog (p : Project) : m (Except Failure (Nat × Option Bool)) := do
  if ← Host.hasEntry p.auditLogPath then
    match ← Trail.readLog p.auditLogPath with
    | .error e =>
      return .error (("Failed to read audit log " ++ p.auditLogPath.text) :: e.failure)
    | .ok records => return .ok (records.length, some (Chain.isValid records))
  else return .ok (0, none)

/-- Says whether a directory is there. -/
def directoryStatus (label : String) (p : Path) : m String := do
  let status := if ← Host.isDirectory p then "OK" else "MISSING"
  return "- " ++ label ++ ": " ++ status ++ " (" ++ p.text ++ ")"

/-- Shows what there is to know about a project. -/
def projectInfoCommand (root : String) (json : Bool) : m Report := do
  match ← Project.openRoot (.ofText root) with
  | .error f => return .failed f
  | .ok project =>
    match project.archive.cards with
    | .error e => return .failed ["Failed to list memory cards", e.cause]
    | .ok cards =>
      match ← inspectLog project with
      | .error f => return .failed f
      | .ok (records, chainValid) =>
        let info : ProjectInfo := ⟨project, cards.length, records, chainValid⟩
        if json then return Report.empty.print (Data.Json.pretty info.toValue)
        let metaStatus ← directoryStatus "Meta" project.layout.metaDir
        let ritualsStatus ← directoryStatus "Rituals" project.layout.ritualsDir
        return Report.empty.printAll (info.lines ++ [metaStatus, ritualsStatus])

/-! ## Cards -/

/-- Puts a card into the archive of a project. -/
def addCardCommand (root id topic content : String) : m Report := do
  match ← Project.openRoot (.ofText root) with
  | .error f => return .failed f
  | .ok project =>
    let card : Card := ⟨id, topic, content, (← Host.now).text⟩
    match ← project.archive.add project.archivePath card with
    | .error e => return .failed ["Failed to insert memory card", e.cause]
    | .ok (row, _) =>
      return Report.empty.printAll [
        "Added memory card:",
        "  Row: " ++ Text.numeral row,
        "  Id: card:" ++ card.id,
        "  Topic: " ++ card.topic,
        "  Archive: " ++ project.archivePath.text]

/-- The line of a card. -/
def cardLine (c : Card) : String :=
  "- card:" ++ c.id ++ " [" ++ c.topic ++ "] " ++ c.content

/-- Shows the cards of a project, the oldest first. -/
def listCardsCommand (root : String) (json : Bool) : m Report := do
  match ← Project.openRoot (.ofText root) with
  | .error f => return .failed f
  | .ok project =>
    match project.archive.cards with
    | .error e => return .failed ["Failed to list memory cards", e.cause]
    | .ok cards =>
      if json then
        return Report.empty.print (Data.Json.pretty (.list (cards.map Card.toValue)))
      else if cards.isEmpty then return Report.empty.print "No memory cards."
      else return Report.empty.printAll ("Memory cards:" :: cards.map cardLine)

end Command

end RitualGate
