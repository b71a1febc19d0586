import RitualGate.Session.Evaluate
import RitualGate.Statement.Reader
import RitualGate.Statement.View

/-!
# Processing statements

An open session evaluates a statement and adds one record to its trail, whether the statement was
accepted or not. A closed session refuses and stays as it is.
-/

namespace RitualGate

open Data (Value)

/-- What is learned from a processed statement. -/
structure Execution where
  outcome : Outcome
  record : AuditRecord
  /-- Whether the record reached the log. -/
  persisted : Bool
  /-- Why the statement was not accepted. -/
  error : Option RitualError
  handle : Option VoiceHandle
  response : Option String
  cards : List ResolvedCard
  view : StatementView
  /-- The calls on collaborators, in order. -/
  calls : List Call

namespace Execution

/-- Whether the statement was accepted. -/
def accepted (e : Execution) : Bool :=
  e.error.isNone

/-- The members of the summary of an execution. -/
def reportMembers (e : Execution) : List (String × Value) :=
  [("accepted", .bool e.accepted),
    ("outcome", .text e.outcome.name),
    ("sequence", .nat e.record.sequence),
    ("persisted", .bool e.persisted),
    ("error_kind", .option (fun err => .text err.kind.name) e.error),
    ("error", .option (fun err => .text err.message) e.error),
    ("handle", .option (fun h => .text h.name) e.handle),
    ("substituted", .bool (e.handle.any VoiceHandle.substituted)),
    ("response", .option .text e.response),
    ("cards", .texts (e.cards.map fun c => c.card.id)),
    ("ast", e.view.toValue)]

/-- The summary of an execution. -/
def report (e : Execution) : Value :=
  .table e.reportMembers

end Execution

namespace Session

/-- The session and the execution once the record of an evaluation is in the trail. -/
def conclude (e : Evaluation) (st : Statement) (record : AuditRecord) (trail : Trail) :
    Session × Execution :=
  ({ e.session with trail, phase := .idle },
    { outcome := e.outcome
      record
      persisted := trail.sink.isSome
      error := e.error?
      handle := e.handle
      response := e.response
      cards := e.cards
      view := .ofStatement st (some record.hashbrown)
      calls := e.calls })

variable {m : Type → Type} [Monad m] [Host m]

/-- Evaluates a statement and records it. -/
def process (s : Session) (c : Collaborators) (st : Statement) :
    m (Session × Except RitualError Execution) := do
  if s.phase = .closed then return (s, .error .sessionClosed)
  let e := { s with phase := .processing }.evaluate c st
  let (record, trail) ← e.session.trail.append st e.outcome e.detail
  let (s, execution) := conclude e st record trail
  return (s, .ok execution)

/-- Reads a line and processes its statement, if it holds one. -/
def executeLine (s : Session) (c : Collaborators) (line : String) :
    m (Session × Except RitualError (Option Execution)) := do
  if s.phase = .closed then return (s, .error .sessionClosed)
  match Statement.parse line with
  | .error e => return (s, .error (.syntaxError e))
  | .ok none => return (s, .ok none)
  | .ok (some st) =>
    let (s, r) ← s.process c st
    match r with
    | .ok e => return (s, .ok (some e))
    | .error e => return (s, .error e)

end Session

end RitualGate
