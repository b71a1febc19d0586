import RitualGate.Audit.Record
import RitualGate.Data.Json.Reader
import RitualGate.Text.Blank
import RitualGate.Text.Utf8

/-!
# Logs

A log is a file with one record a line. Blank lines mean nothing. Reading stops at the first line
that is no text or no record.
-/

namespace RitualGate

/-- Why a log cannot be read. -/
inductive LogFault where
  /-- A line is no text. -/
  | notText
  /-- A line is no record. -/
  | malformed (line : Nat)
deriving DecidableEq, Repr

namespace Log

/-- The record on a line, if the line holds one. -/
def parseRecord? (s : String) : Option AuditRecord :=
  match Data.Json.parse? s with
  | none => none
  | some v => (AuditRecord.ofValue v).toOption

/-- The records on lines, the first of which has a number. -/
def parseLines (number : Nat) : List Bytes → Except LogFault (List AuditRecord)
  | [] => .ok []
  | l :: ls =>
    match Text.decode? l with
    | none => .error .notText
    | some s =>
      if Text.isBlankText s then parseLines (number + 1) ls
      else
        match parseRecord? s with
        | none => .error (.malformed number)
        | some r =>
          match parseLines (number + 1) ls with
          | .ok rs => .ok (r :: rs)
          | .error e => .error e

/-- The records of a log. -/
def parse (bytes : Bytes) : Except LogFault (List AuditRecord) :=
  parseLines 1 (Text.byteLines bytes)

/-- The log of some records. -/
def encode (rs : List AuditRecord) : Bytes :=
  rs.flatMap fun r => Text.encode r.line

end Log

end RitualGate
