import RitualGate.Path

/-!
# The layout of a project

A project is a directory with its settings, its archive and its audit log in a directory of their
own. Paths are stored relative to the root if they lie under it, and as they are shown.
-/

namespace RitualGate

/-- Where the parts of a project are. -/
structure ProjectLayout where
  root : Path
deriving DecidableEq, Repr

namespace ProjectLayout

/-- The directory of what belongs to the project itself. -/
def metaDir (l : ProjectLayout) : Path := l.root.child ".spiral"

/-- The file of the settings. -/
def configPath (l : ProjectLayout) : Path := l.metaDir.child "project.json"

/-- The file of the memory archive. -/
def archivePath (l : ProjectLayout) : Path := l.metaDir.child "archive.db"

/-- The file of the audit log. -/
def auditLogPath (l : ProjectLayout) : Path := l.metaDir.child "audit.jsonl"

/-- The directory of the ritual programs. -/
def ritualsDir (l : ProjectLayout) : Path := l.root.child "rituals"

/-- What remains of a path behind the root, if it lies under the root. -/
def relative (l : ProjectLayout) (target : Path) : Path :=
  match target.stripBase? l.root with
  | some rest => rest
  | none => target

/-- The text under which a path is stored. -/
def relativeText (l : ProjectLayout) (target : Path) : String :=
  (l.relative target).text

/-- The path that a stored text stands for. -/
def resolve (l : ProjectLayout) (stored : String) : Path :=
  l.root.join (.ofText stored)

end ProjectLayout

end RitualGate
