import RitualGate.Audit.Log
import RitualGate.Failure
import RitualGate.Host.Basic
import RitualGate.Statement.Canonical

/-!
# Audit trails

A trail is the chain of a session, from genesis or from a log that it goes on with. Each new record
is added to the log as well. The first record that cannot be written detaches the log, so the log
always holds the beginning of the chain.
-/

namespace RitualGate

/-- A record that could not be written. -/
structure WriteFailure where
  sequence : Nat
  path : Path
  cause : IoError
deriving DecidableEq, Repr

namespace WriteFailure

/-- The report of a failure. -/
def message (f : WriteFailure) : String :=
  "audit record " ++ Text.numeral f.sequence ++ " could not be written to " ++ f.path.text ++ ": " ++
    f.cause.message

end WriteFailure

/-- The chain of a session. -/
structure Trail where
  records : List AuditRecord
  /-- The log that records go to, while they do. -/
  sink : Option Path
  /-- What detached the log. -/
  failure : Option WriteFailure
deriving DecidableEq, Repr

namespace Trail

/-- A chain without records and without a log. -/
def empty : Trail := ⟨[], none, none⟩

/-- The hash that the next record holds for its predecessor. -/
def head (t : Trail) : String :=
  (t.records.getLast?.map AuditRecord.selfHash).getD genesisHash

/-- The next record. -/
def next (t : Trail) (s : Statement) (outcome : Outcome) (detail : OutcomeDetail) (now : Instant) :
    AuditRecord where
  sequence := Text.word t.records.length
  keyword := s.keyword
  statementDigest := s.digest
  prevHash := t.head
  selfHash := chainHash t.head s.digest outcome now.stamp
  timestamp := now.stamp
  outcome
  detail

/-- Adds a record, given whether it could be written. -/
def push (t : Trail) (r : AuditRecord) (written : Except IoError Unit) : Trail :=
  match t.sink, written with
  | some path, .error cause => ⟨t.records ++ [r], none, some ⟨r.sequence, path, cause⟩⟩
  | _, _ => { t with records := t.records ++ [r] }

variable {m : Type → Type} [Monad m] [Host m]

/-- The records of the log at a path. -/
def readLog (path : Path) : m (Except InitError (List AuditRecord)) := do
  match ← Host.read path with
  | .error e => return .error (.io path e)
  | .ok bytes =>
    match Log.parse bytes with
    | .ok rs => return .ok rs
    | .error .notText => return .error (.io path .notText)
    | .error (.malformed line) => return .error (.malformedLog line)

/-- Makes the log at a path, and the directories that it lies in. -/
def openSink (path : Path) : m (Except IoError Unit) := do
  match path.parent? with
  | some parent =>
    if parent.bytes = [] then Host.touch path
    else
      match ← Host.makeDirs parent with
      | .error e => return .error e
      | .ok () => Host.touch path
  | none => Host.touch path

/-- Goes on with the chain in the log at a path, if that is one. -/
def resume (path : Path) : m (Except InitError Trail) := do
  let existing ← if ← Host.isFile path then readLog path else pure (.ok [])
  match existing with
  | .error e => return .error e
  | .ok records =>
    match Chain.verify records with
    | .error e => return .error (.chainCorrupted e)
    | .ok () =>
      match ← openSink path with
      | .error e => return .error (.io path e)
      | .ok () => return .ok ⟨records, some path, none⟩

/-- Adds a record to the log at a path. -/
def writeRecord (path : Path) (r : AuditRecord) : m (Except IoError Unit) :=
  Host.append path (Text.encode r.line)

/-- Adds the record of a statement, to the chain and to the log. -/
def append (t : Trail) (s : Statement) (outcome : Outcome) (detail : OutcomeDetail) :
    m (AuditRecord × Trail) := do
  let record := t.next s outcome detail (← Host.now)
  match t.sink with
  | none => return (record, t.push record (.ok ()))
  | some path =>
    let written ← writeRecord path record
    return (record, t.push record written)

end Trail

end RitualGate
