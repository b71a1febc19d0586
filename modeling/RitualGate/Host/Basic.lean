import RitualGate.Host.Clock
import RitualGate.Host.FileTree

/-!
# Hosts

A host is where a session runs: it has files, a clock, a directory that paths start from and an
input. Everything that touches the outside goes through one.
-/

namespace RitualGate

/-- What a session can ask of the place where it runs. -/
class Host (m : Type → Type) where
  /-- The time. -/
  now : m Instant
  /-- The directory that relative paths start from. -/
  here : m Path
  /-- All of the standard input. -/
  input : m Bytes
  /-- The kind of what a path leads to, if there is something. -/
  kind? : Path → m (Option EntryKind)
  /-- The absolute path of what a path leads to, if there is something. -/
  canonical? : Path → m (Option Path)
  /-- The content of a file. -/
  read : Path → m (Except IoError Bytes)
  /-- Gives a file a new content. -/
  write : Path → Bytes → m (Except IoError Unit)
  /-- Gives a file a new content as a whole, or leaves it as it was and says why. -/
  commit : Path → Bytes → m (Except IoError Unit)
  /-- Makes a file for appending. -/
  touch : Path → m (Except IoError Unit)
  /-- Adds to the end of a file all of the bytes, or none and says why. -/
  append : Path → Bytes → m (Except IoError Unit)
  /-- Makes a directory and those above it. -/
  makeDirs : Path → m (Except IoError Unit)

namespace Host

variable {m : Type → Type} [Monad m] [Host m]

/-- The content of a file as a text. -/
def readText (p : Path) : m (Except IoError String) := do
  match ← Host.read p with
  | .error e => return .error e
  | .ok bytes =>
    match Text.decode? bytes with
    | some s => return .ok s
    | none => return .error .notText

/-- Whether a path leads to something. -/
def hasEntry (p : Path) : m Bool := do
  return (← Host.kind? p).isSome

/-- Whether a path leads to a file. -/
def isFile (p : Path) : m Bool := do
  return decide ((← Host.kind? p) = some .file)

/-- Whether a path leads to a directory. -/
def isDirectory (p : Path) : m Bool := do
  return decide ((← Host.kind? p) = some .directory)

/-- The absolute path of something that is there, or a path seen from the current directory. -/
def locate (p : Path) : m Path := do
  if p.components = [.here] then Host.here
  else
    match ← Host.canonical? p with
    | some q => return q
    | none => return (← Host.here).join p

end Host

end RitualGate
