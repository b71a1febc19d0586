import RitualGate.Archive.Store
import RitualGate.Host.Basic

/-!
# Archives in files

Opening an archive reads its file, or starts an empty one, and brings it to the current version.
Each step of the migration is committed before the next one begins, and may be refused by itself. A
card that is added is committed at once.
-/

namespace RitualGate

namespace Store

variable {m : Type → Type} [Monad m] [Host m]

/-- Commits a store to its file. -/
def save (s : Store) (p : Path) : m (Except ArchiveError Unit) := do
  match ← Host.commit p s.encode with
  | .ok () => return .ok ()
  | .error _ => return .error .refused

/-- The bytes of the file of a store, which is made if there is none. -/
def load (p : Path) : m (Except IoError Bytes) := do
  match ← Host.touch p with
  | .ok () => Host.read p
  | .error e => return .error e

/-- Takes the steps that are due, and commits each of them. -/
def migrate (p : Path) : Store → List Step → m (Except ArchiveError Store)
  | s, [] => return .ok s
  | s, step :: steps =>
    if step.due s.version then
      match step.apply s with
      | .error e => return .error e
      | .ok s => do
        match ← s.save p with
        | .error e => return .error e
        | .ok () => migrate p s steps
    else migrate p s steps

/-- Opens the store in a file, unless its version is too new. -/
def openFile (p : Path) : m (Except ArchiveError Store) := do
  match ← load p with
  | .error _ => return .error .unreadable
  | .ok bytes =>
    match decode bytes with
    | .error e => return .error e
    | .ok s =>
      if currentVersion < s.version then return .error (.unsupportedVersion s.version)
      else migrate p s migration

/-- Adds a card to a store and to its file, and returns the number of its row. -/
def add (s : Store) (p : Path) (c : Card) : m (Except ArchiveError (Nat × Store)) := do
  match s.insert c with
  | .error e => return .error e
  | .ok (number, s) =>
    match ← s.save p with
    | .error e => return .error e
    | .ok () => return .ok (number, s)

end Store

end RitualGate
