import RitualGate.Data.Decode
import RitualGate.Data.Json.Printer
import RitualGate.Error

/-!
# Audit records

Every processed statement leaves one record. The hash of a record covers its predecessor's hash, the
digest of the statement, the outcome and the time; the keyword and the detail ride along. In a log a
record is one line of JSON.
-/

namespace RitualGate

open Data (Value Decoder Fields)

/-- How a statement ended. -/
inductive Outcome where
  | completed
  | failed
deriving DecidableEq, Repr

namespace Outcome

/-- The name of an outcome. -/
def name : Outcome → String
  | completed => "completed"
  | failed => "failed"

/-- Every outcome. -/
def all : List Outcome := [completed, failed]

/-- The outcome with a name. -/
def ofName? (s : String) : Option Outcome :=
  all.find? fun o => o.name == s

/-- Reads an outcome. -/
def ofValue : Decoder Outcome := Data.Decode.variant ofName?

end Outcome

/-- What a record says beyond what its hash covers. -/
structure OutcomeDetail where
  errorKind : Option ErrorKind
  reason : Option String
  /-- The handle that a dispatch went to. -/
  handle : Option String
  /-- Whether containment put the handle in place of the requested persona. -/
  substituted : Bool
deriving DecidableEq, Repr

namespace OutcomeDetail

/-- Nothing to say. -/
def empty : OutcomeDetail := ⟨none, none, none, false⟩

/-- The data of a detail, without what it does not say. -/
def toValue (d : OutcomeDetail) : Value :=
  .table
    ((d.errorKind.toList.map fun k => ("error_kind", .text k.name)) ++
      (d.reason.toList.map fun s => ("reason", .text s)) ++
      (d.handle.toList.map fun s => ("handle", .text s)) ++
      (if d.substituted then [("substituted", .bool true)] else []))

/-- Reads a detail. -/
def ofValue : Decoder OutcomeDetail :=
  Fields.decode ["error_kind", "reason", "handle", "substituted"]
    ((Fields.pure OutcomeDetail.mk)
      |>.seq (.optional "error_kind" (Data.Decode.variant ErrorKind.ofName?))
      |>.seq (.optional "reason" Data.Decode.text)
      |>.seq (.optional "handle" Data.Decode.text)
      |>.seq (.defaulted "substituted" Data.Decode.bool false))

end OutcomeDetail

/-- The record of one processed statement. -/
structure AuditRecord where
  sequence : Nat
  keyword : String
  statementDigest : String
  prevHash : String
  selfHash : String
  timestamp : String
  outcome : Outcome
  detail : OutcomeDetail
deriving DecidableEq, Repr

namespace AuditRecord

/-- The short mark of a record: the beginning of its hash, and its time. -/
def hashbrown (r : AuditRecord) : String :=
  "sha256:" ++ String.ofList (r.selfHash.toList.take 16) ++ ".../ts:" ++ r.timestamp

/-- The data of a record. -/
def toValue (r : AuditRecord) : Value :=
  .table [
    ("sequence", .nat r.sequence),
    ("keyword", .text r.keyword),
    ("statement_digest", .text r.statementDigest),
    ("prev_hash", .text r.prevHash),
    ("self_hash", .text r.selfHash),
    ("timestamp", .text r.timestamp),
    ("outcome", .text r.outcome.name),
    ("detail", r.detail.toValue)]

/-- The names of the fields of a record. -/
def fieldNames : List String :=
  ["sequence", "keyword", "statement_digest", "prev_hash", "self_hash", "timestamp", "outcome",
    "detail"]

/-- Reads a record. -/
def ofValue : Decoder AuditRecord :=
  Fields.decode fieldNames
    ((Fields.pure AuditRecord.mk)
      |>.seq (.required "sequence" (Data.Decode.nat Text.wordMax))
      |>.seq (.required "keyword" Data.Decode.text)
      |>.seq (.required "statement_digest" Data.Decode.text)
      |>.seq (.required "prev_hash" Data.Decode.text)
      |>.seq (.required "self_hash" Data.Decode.text)
      |>.seq (.required "timestamp" Data.Decode.text)
      |>.seq (.required "outcome" Outcome.ofValue)
      |>.seq (.defaulted "detail" OutcomeDetail.ofValue OutcomeDetail.empty))

/-- The line of a record in a log. -/
def line (r : AuditRecord) : String :=
  Data.Json.compact r.toValue ++ "\n"

end AuditRecord

end RitualGate
