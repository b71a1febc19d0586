import RitualGate.Config.Codec
import RitualGate.Project.Layout

/-!
# The settings of a project
-/

namespace RitualGate

open Data (Value Decoder Fields)
open Data.Decode

/-- The settings of a project. -/
structure ProjectConfig where
  name : String
  description : Option String
  /-- The version of the format. -/
  version : String
  /-- The file of the memory archive, as stored. -/
  archive : String
  /-- The file of the audit log, as stored. -/
  auditLog : String
  /-- What the sessions of the project are set up with. -/
  interpreter : Config

namespace ProjectConfig

/-- The current version of the format. -/
def currentVersion : String := "0.1.0"

/-- The settings of a new project. -/
def new (name : String) (l : ProjectLayout) : ProjectConfig where
  name
  description := none
  version := currentVersion
  archive := l.relativeText l.archivePath
  auditLog := l.relativeText l.auditLogPath
  interpreter := .default

/-- The data of the settings. -/
def toValue (c : ProjectConfig) : Value :=
  .table (("name", .text c.name) ::
    (c.description.toList.map fun s => ("description", .text s)) ++ [
    ("config_version", .text c.version),
    ("archive", .table [("path", .text c.archive)]),
    ("audit_log", .text c.auditLog),
    ("interpreter", c.interpreter.toValue)])

/-- Reads the place of an archive. -/
def archiveOfValue : Decoder String :=
  Fields.decode ["path"] (.required "path" text)

/-- The names of the settings. -/
def fieldNames : List String :=
  ["name", "description", "config_version", "archive", "audit_log", "interpreter"]

/-- Reads the settings of a project. -/
def ofValue : Decoder ProjectConfig :=
  Fields.decode fieldNames
    ((Fields.pure ProjectConfig.mk)
      |>.seq (.required "name" text)
      |>.seq (.optional "description" text)
      |>.seq (.required "config_version" text)
      |>.seq (.required "archive" archiveOfValue)
      |>.seq (.required "audit_log" text)
      |>.seq (.defaulted "interpreter" Config.ofValue Config.default))

end ProjectConfig

end RitualGate
