import RitualGate.Archive.Shelf
import RitualGate.Archive.Table
import RitualGate.Data.Json.Printer
import RitualGate.Data.Json.Reader
import RitualGate.Text.Utf8

/-!
# The stored archive

A store keeps cards with distinct ids under a schema version. Version 0 has nothing yet, version 1
has the table of cards, version 2 an index on their topics besides. Opening a store brings it to the
current version, one step at a time; a step that fails leaves the store as it was before that step.

A store is kept in a file as a line that names the format and a line of JSON.
-/

namespace RitualGate

open Data (Value Decoder Fields)

/-- Why an operation on a stored archive fails. -/
inductive ArchiveError where
  /-- The file cannot be opened or is no archive. -/
  | unreadable
  /-- The file does not take a change. -/
  | refused
  /-- There is no table of cards. -/
  | missingTable
  /-- The table does not take a card. -/
  | table (fault : TableFault)
  | unsupportedVersion (found : Int)
  | duplicateCard (id : String)
deriving DecidableEq, Repr

/-- A stored archive. -/
structure Store where
  version : Int
  /-- The table of cards, once there is one. -/
  table : Option Table
deriving DecidableEq, Repr

namespace Store

/-- The oldest supported version. -/
def minVersion : Int := 0

/-- The version of an open store. -/
def currentVersion : Int := 2

end Store

namespace ArchiveError

/-- The wording of a failure. -/
def message : ArchiveError → String
  | unreadable => "SQLite error"
  | refused => "SQLite error"
  | missingTable => "SQLite error: no such table: cards"
  | table fault => "SQLite error: " ++ fault.message
  | unsupportedVersion found =>
    "Unsupported schema version " ++ String.ofList (Data.Json.intChars found) ++
      "; supported range is " ++ String.ofList (Data.Json.intChars Store.minVersion) ++ "..=" ++
      String.ofList (Data.Json.intChars Store.currentVersion)
  | duplicateCard id => "memory card '" ++ id ++ "' already exists"

/-- What stands for the words of the storage engine. -/
def engineCause : String := "<sqlite error>"

/-- The wording of a failure without the words of the storage engine. -/
def cause : ArchiveError → String
  | unreadable => engineCause
  | refused => engineCause
  | missingTable => engineCause
  | table _ => engineCause
  | e => e.message

end ArchiveError

namespace Store

/-- A store without anything in it. -/
def fresh : Store := ⟨0, none⟩

/-! ## Migration -/

/-- To version 1: creates the table unless there is one. -/
def createTable (s : Store) : Except ArchiveError Store :=
  .ok ⟨1, some (s.table.getD .empty)⟩

/-- To version 2: indexes the table, which has to be there. -/
def createIndex (s : Store) : Except ArchiveError Store :=
  match s.table with
  | some t => .ok ⟨2, some t⟩
  | none => .error .missingTable

/-- A step of a migration: the versions that it is for, and what it makes of a store. -/
structure Step where
  due : Int → Bool
  apply : Store → Except ArchiveError Store

/-- The steps that bring a store to the current version. -/
def migration : List Step :=
  [⟨fun version => decide (version = 0), createTable⟩,
    ⟨fun version => decide (version < currentVersion), createIndex⟩]

/-! ## Cards -/

/-- Asks the table, which has to be there. -/
def query {α : Type} (s : Store) (ask : Table → α) : Except ArchiveError α :=
  match s.table with
  | some t => .ok (ask t)
  | none => .error .missingTable

/-- The cards, the oldest first. -/
def cards (s : Store) : Except ArchiveError (List Card) :=
  s.query fun t => t.ascending.map Row.card

/-- The card with an id. -/
def get (s : Store) (id : String) : Except ArchiveError (Option Card) :=
  s.query fun t => (t.find? id).map Row.card

/-- A limit as a query takes it. -/
def limit (n : Nat) : Nat := min n Row.maxNumber

/-- The last cards, the newest first. -/
def latest (s : Store) (n : Nat) : Except ArchiveError (List Card) :=
  s.query fun t => (t.descending.take (limit n)).map Row.card

/-- Adds a card whose id is new, and returns the number of its row. -/
def insert (s : Store) (c : Card) : Except ArchiveError (Nat × Store) :=
  match s.table with
  | none => .error .missingTable
  | some t =>
    if (t.find? c.id).isSome then .error (.duplicateCard c.id)
    else
      match t.insert c with
      | .error fault => .error (.table fault)
      | .ok (number, t) => .ok (number, { s with table := some t })

/-- The cards that a reference asks for. -/
def select (s : Store) (r : CardRef) (topic : String) : Except ArchiveError (List Card) :=
  match r with
  | .id text =>
    match s.get text with
    | .ok c => .ok c.toList
    | .error e => .error e
  | .latest n => s.latest n
  | .topicRelevant =>
    match s.cards with
    | .ok cards => .ok (rank cards topic)
    | .error e => .error e
  | .topRelevant k =>
    match s.cards with
    | .ok cards => .ok ((rank cards topic).take k)
    | .error e => .error e

/-- A store as an archive. -/
def archive (s : Store) : Archive := fun r topic =>
  match s.select r topic with
  | .ok cards => .ok cards
  | .error e => .error (.failed e.message)

/-! ## Files -/

/-- The line that the file of a store begins with. -/
def banner : String := "memory archive\n"

/-- The content of the file of a store. -/
def encode (s : Store) : Bytes :=
  let v := Value.table [("version", .int s.version),
    ("cards", .option Table.toValue s.table)]
  Text.encode (banner ++ Data.Json.compact v ++ "\n")

/-- A whole number. -/
def decodeVersion : Decoder Int
  | .int n => .ok n
  | _ => .error .shape

/-- Reads the data of a store. -/
def ofValue : Decoder Store :=
  Fields.decode ["version", "cards"]
    ((Fields.pure Store.mk)
      |>.seq (.required "version" decodeVersion)
      |>.seq (.optional "cards" Table.ofValue))

/-- Reads the file of a store. An empty file is a fresh store. -/
def decode (bytes : Bytes) : Except ArchiveError Store :=
  if bytes.isEmpty then .ok fresh
  else
    match Text.decode? bytes >>= fun s => Text.stripHead? banner.toList s.toList with
    | none => .error .unreadable
    | some rest =>
      match Data.Json.parse? (String.ofList rest) with
      | none => .error .unreadable
      | some v =>
        match ofValue v with
        | .ok s => .ok s
        | .error _ => .error .unreadable

end Store

end RitualGate
