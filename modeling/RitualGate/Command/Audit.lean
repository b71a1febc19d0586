import RitualGate.Audit.Trail
import RitualGate.Command.Report

/-!
# Verifying logs
-/

namespace RitualGate

open Data (Value)

namespace Command

/-- What the verification of a log finds. -/
structure Verification where
  log : String
  records : List AuditRecord
  verdict : Except ChainError Unit

namespace Verification

/-- The record at which the chain breaks, if it does. -/
def error? (v : Verification) : Option ChainError :=
  match v.verdict with
  | .ok () => none
  | .error e => some e

/-- The data of a verification. -/
def toValue (v : Verification) : Value :=
  .table [
    ("log", .text v.log),
    ("records", .nat v.records.length),
    ("valid", .bool v.error?.isNone),
    ("head", .option (fun r => .text r.selfHash) v.records.getLast?),
    ("broken_at", .option (fun e => .nat e.sequence) v.error?),
    ("reason", .option (fun e => .text e.fault.message) v.error?)]

/-- The lines of a verification. -/
def lines (v : Verification) : List String :=
  match v.error? with
  | none =>
    ("Audit chain OK: " ++ Text.numeral v.records.length ++ " record(s)") ::
      v.records.getLast?.toList.map fun r => "  Head: " ++ r.hashbrown
  | some _ => ["Audit chain BROKEN in " ++ v.log]

/-- A broken chain is a failure. -/
def failure (v : Verification) : Failure :=
  match v.error? with
  | none => []
  | some e => ["Audit log " ++ v.log ++ " failed verification", e.message]

end Verification

/-- Verifies the chain in a log. -/
def verifyAuditCommand {m : Type → Type} [Monad m] [Host m] (log : String) (json : Bool) :
    m Report := do
  match ← Trail.readLog (.ofText log) with
  | .error e => return .failed (("Failed to read audit log " ++ log) :: e.failure)
  | .ok records =>
    let v : Verification := ⟨log, records, Chain.verify records⟩
    let report :=
      if json then Report.empty.print (Data.Json.pretty v.toValue)
      else Report.empty.printAll v.lines
    return report.fail v.failure

end Command

end RitualGate
