import RitualGate.Audit.Chain
import RitualGate.Config.Basic
import RitualGate.Host.IoError

/-!
# What stops a session from starting

`InitError` collects the reasons for which a session does not start. A `Failure` is a reason for a
person to read: what was tried, and under it the cause.
-/

namespace RitualGate

/-- What was tried, outermost first, and the cause last. -/
abbrev Failure := List String

/-- What stands for the words of a reader of JSON. -/
def jsonCause : String := "<json error>"

/-- What stands for the words of a reader of YAML. -/
def yamlCause : String := "<yaml error>"

/-- Why a session does not start. -/
inductive InitError where
  | config (e : ConfigError)
  | chainCorrupted (e : ChainError)
  | malformedLog (line : Nat)
  | io (path : Path) (e : IoError)
deriving DecidableEq

namespace InitError

/-- The wording of an error. -/
def message : InitError → String
  | config e => e.message
  | chainCorrupted e =>
    "audit chain corrupted at sequence " ++ Text.numeral e.sequence ++ ": " ++ e.fault.message
  | malformedLog line =>
    "malformed audit log entry on line " ++ Text.numeral line ++ ": " ++ jsonCause
  | io path e => "audit log I/O failed for " ++ path.text ++ ": " ++ e.message

/-- An error with the cause under it. -/
def failure (e : InitError) : Failure :=
  match e with
  | config _ => [e.message]
  | chainCorrupted _ => [e.message]
  | malformedLog _ => [e.message, jsonCause]
  | io _ cause => [e.message, cause.message]

end InitError

end RitualGate
