import RitualGate.Archive.Shelf
import RitualGate.Command.Program
import RitualGate.Config.Load
import RitualGate.Project.Basic
import RitualGate.Session.Process

/-!
# Running programs

`runCommand` reads a program, starts a session for it, processes its statements one by one and sums
up. A line that holds no statement is reported and passed over.
-/

namespace RitualGate

open Data (Value)

namespace Command

/-- What a run is asked to do. -/
structure RunOptions where
  file : String
  /-- The project whose settings, archive and log are used. -/
  root : Option String
  /-- A configuration in place of that of the project. -/
  config : Option String
  /-- A log in place of every other. -/
  auditLog : Option String
  /-- Whether to print data rather than text. -/
  json : Bool
deriving DecidableEq, Repr

/-- What is to be said before a run: that the file does not look like a program. -/
def RunOptions.warnings (o : RunOptions) : List String :=
  if hasProgramExtension o.file then []
  else ["program does not have a .spiral extension file=" ++ o.file]

/-- The counts of a run. -/
structure Tally where
  /-- Statements that were processed. -/
  statements : Nat
  completed : Nat
  /-- Statements that were accepted and ended in failure. -/
  failed : Nat
  rejected : Nat
  syntaxErrors : Nat
deriving DecidableEq, Repr

namespace Tally

/-- Nothing counted. -/
def zero : Tally := ⟨0, 0, 0, 0, 0⟩

/-- Counts a processed statement. -/
def count (t : Tally) (e : Execution) : Tally :=
  let t := { t with statements := t.statements + 1 }
  match e.accepted, e.outcome with
  | true, .completed => { t with completed := t.completed + 1 }
  | true, .failed => { t with failed := t.failed + 1 }
  | false, _ => { t with rejected := t.rejected + 1 }

/-- Counts a line that holds no statement. -/
def countSyntaxError (t : Tally) : Tally :=
  { t with syntaxErrors := t.syntaxErrors + 1 }

end Tally

/-- The summary of a run. -/
structure RunSummary where
  program : String
  programDigest : String
  startedAt : String
  finishedAt : String
  tally : Tally
  auditLog : Option String
  /-- The mark of the last record. -/
  auditHead : Option String
  /-- Why the log stopped receiving records. -/
  auditError : Option String
deriving DecidableEq, Repr

namespace RunSummary

/-- The data of a summary. -/
def toValue (s : RunSummary) : Value :=
  .table [
    ("program", .text s.program),
    ("program_sha256", .text s.programDigest),
    ("started_at", .text s.startedAt),
    ("finished_at", .text s.finishedAt),
    ("statements", .nat s.tally.statements),
    ("completed", .nat s.tally.completed),
    ("failed", .nat s.tally.failed),
    ("rejected", .nat s.tally.rejected),
    ("syntax_errors", .nat s.tally.syntaxErrors),
    ("audit_log", .option .text s.auditLog),
    ("audit_head", .option .text s.auditHead),
    ("audit_error", .option .text s.auditError)]

/-- The lines of a summary. -/
def lines (s : RunSummary) : List String :=
  ["", "Ritual run summary", "==================",
    "Program: " ++ s.program ++ " (sha256 " ++ s.programDigest ++ ")",
    "Statements: " ++ Text.numeral s.tally.statements,
    "  Completed: " ++ Text.numeral s.tally.completed,
    "  Declared failures: " ++ Text.numeral s.tally.failed,
    "  Rejected: " ++ Text.numeral s.tally.rejected,
    "Syntax errors: " ++ Text.numeral s.tally.syntaxErrors] ++
  (s.auditLog.toList.map fun log => "Audit log: " ++ log) ++
  (s.auditHead.toList.map fun head => "Audit head: " ++ head) ++
  (s.auditError.toList.map fun e => "Audit log write FAILED: " ++ e)

/-- What a run ends with: nothing if the log is complete and every line was accepted. -/
def failure (s : RunSummary) : Failure :=
  match s.auditError with
  | some e => ["audit log incomplete: " ++ e]
  | none =>
    if s.tally.rejected = 0 ∧ s.tally.syntaxErrors = 0 then []
    else [Text.numeral s.tally.rejected ++ " statement(s) rejected, " ++
      Text.numeral s.tally.syntaxErrors ++ " syntax error(s)"]

end RunSummary

/-! ## Lines of output -/

/-- The mark of a line of the program. -/
def lineMark (n : Nat) : String :=
  "[line " ++ Text.numeral n ++ "] "

/-- How a statement ended. -/
def statusText (e : Execution) : String :=
  match e.error with
  | some err => "REJECTED (" ++ err.kind.name ++ "): " ++ err.message
  | none => e.outcome.name

/-- The voice of a statement. -/
def voiceText (h : VoiceHandle) : String :=
  if h.substituted then
    "    voice: " ++ h.name ++ " (containment, requested " ++ h.requested.token ++ ")"
  else "    voice: " ++ h.name

/-- The lines of a processed statement. -/
def executionLines (n : Nat) (s : Statement) (e : Execution) : List String :=
  [lineMark n ++ s.canonical ++ " -> " ++ statusText e] ++
  (e.handle.toList.map voiceText) ++
  (e.response.toList.map fun text => "    response: " ++ text) ++
  (if e.cards.isEmpty then []
    else ["    cards: " ++ ", ".intercalate (e.cards.map fun c => "card:" ++ c.card.id)]) ++
  ["    audit: #" ++ Text.numeral e.record.sequence ++ " " ++ e.record.hashbrown]

/-- The data of a processed statement. -/
def executionValue (n : Nat) (e : Execution) : Value :=
  .table (("line", .nat n) :: e.reportMembers)

/-- The data of a line that holds no statement. -/
def syntaxValue (n : Nat) (e : SyntaxError) : Value :=
  .table [("line", .nat n), ("error_kind", .text ErrorKind.syntaxError.name),
    ("error", .text e.message)]

/-- Prints a processed statement. -/
def printExecution (json : Bool) (r : Report) (n : Nat) (s : Statement) (e : Execution) : Report :=
  if json then r.print (Data.Json.compact (executionValue n e))
  else r.printAll (executionLines n s e)

/-- Prints a line that holds no statement. -/
def printSyntaxError (json : Bool) (r : Report) (n : Nat) (e : SyntaxError) : Report :=
  if json then r.print (Data.Json.compact (syntaxValue n e))
  else r.print (lineMark n ++ e.message)

/-- Prints a summary. -/
def printSummary (json : Bool) (r : Report) (s : RunSummary) : Report :=
  if json then r.print (Data.Json.compact (.table [("summary", s.toValue)]))
  else r.printAll s.lines

/-! ## The run -/

/-- A run between two lines. -/
structure RunState where
  session : Session
  tally : Tally
  report : Report

variable {m : Type → Type} [Monad m] [Host m]

/-- Processes the lines of a program in order, and stops only if the session refuses. -/
def runLines (json : Bool) (c : Collaborators) :
    List ParsedLine → RunState → m (RunState × Option RitualError)
  | [], st => return (st, none)
  | l :: ls, st =>
    match l.result with
    | .error e =>
      runLines json c ls
        { st with
          tally := st.tally.countSyntaxError
          report := printSyntaxError json st.report l.line e }
    | .ok s => do
      let (session, result) ← st.session.process c s
      match result with
      | .error e => return ({ st with session }, some e)
      | .ok e =>
        runLines json c ls
          { session
            tally := st.tally.count e
            report := printExecution json st.report l.line s e }

/-- Opens the project of a run, if it has one. -/
def openProject? : Option String → m (Except Failure (Option Project))
  | none => return .ok none
  | some root => do
    match ← Project.openRoot (.ofText root) with
    | .error f => return .error f
    | .ok p => return .ok (some p)

/-- The configuration of a run before the log is settled. -/
def baseConfig (config : Option String) (project : Option Project) : m (Except Failure Config) := do
  match config, project with
  | some path, _ => Config.load (.ofText path)
  | none, some p => return .ok p.interpreter
  | none, none => return .ok .default

/-- The log of a run: the one that is asked for, else the one of the configuration, else the one of
the project. -/
def settleLog (auditLog : Option String) (project : Option Project) (c : Config) : Config :=
  let own := c.audit.logPath.or (project.map Project.auditLogPath)
  { c with audit := { c.audit with logPath := (auditLog.map Path.ofText).or own } }

/-- What the sessions of a run call on: the archive of the project, or an empty one, and voices that
say that they are there. -/
def collaborators (project : Option Project) : Collaborators where
  responder := Script.empty.respond
  archive :=
    match project with
    | some p => p.archive.archive
    | none => Shelf.archive []

/-- Runs a program in a session. -/
def runProgram (o : RunOptions) (program : String) (project : Option Project) (config : Config)
    (session : Session) : m Report := do
  let startedAt ← Host.now
  let (st, refusal) ← runLines o.json (collaborators project) (parseProgram program)
    ⟨session, .zero, .empty⟩
  match refusal with
  | some e => return st.report.fail ["Ritual session refused statement", e.message]
  | none =>
    let session := st.session.close
    let finishedAt ← Host.now
    let summary : RunSummary :=
      { program := o.file
        programDigest := Sha256.hexOfText program
        startedAt := startedAt.text
        finishedAt := finishedAt.text
        tally := st.tally
        auditLog := config.audit.logPath.map Path.text
        auditHead := session.trail.records.getLast?.map AuditRecord.hashbrown
        auditError := session.trail.failure.map WriteFailure.message }
    return (printSummary o.json st.report summary).fail summary.failure

/-- Runs a program. -/
def runCommand (o : RunOptions) : m Report := do
  match ← readProgram o.file with
  | .error f => return .failed f
  | .ok program =>
    match ← openProject? o.root with
    | .error f => return .failed f
    | .ok project =>
      match ← baseConfig o.config project with
      | .error f => return .failed f
      | .ok base =>
        let config := settleLog o.auditLog project base
        match ← Session.start config with
        | .error e => return .failed ("Failed to start ritual session" :: e.failure)
        | .ok session => runProgram o program project config session

end Command

end RitualGate
